/-
Several slaves and the one master that they send their updates to.  Whatever
breaks and whatever the master expires, a record never counts more reports
than were passed to all the slaves together.
-/
import BohunoPyzord.HiddenRecords
import BohunoPyzord.TransportDelivery

namespace BohunoPyzord

/-- The slaves with their connections to the master, its database and its
`expire_status`.  `log` are the updates that it has written, `since` how many
of these there were when the record of a hash last expired. -/
structure Cluster where
  slaves : List Transport
  stored : Database
  status : Option (List Byte)
  log : List Processed
  since : Hash → Nat

/-- Something happens between a slave and the master, or records expire. -/
inductive ClusterEvent where
  | transport (k : Nat) (event : TransportEvent) (calls : DbCalls)
      (now : Uint32)
  | handleExpire (calls : Master.ExpireTickCalls) (now : Uint32)

/-- The update that a session of the master has read. -/
def Transport.updateRead (t : Transport) : TransportEvent → Option Update
  | .handleRead k false => t.sessions[k]?.map fun session =>
      Update.framing.decode session.stream.buffer
  | _ => none

namespace Cluster

/-- `process_update`; its exception ends the run. -/
def process (s : Cluster) (calls : DbCalls) (p : Processed) : Option Cluster :=
  (s.stored.processUpdate calls p.update p.now).map fun stored =>
    { s with
      stored
      log := if calls = .succeed then s.log ++ [p] else s.log }

/-- The record of a hash has expired when it was stored and is no longer. -/
def expire (s : Cluster) (stored : Database) (h : Hash) : Nat :=
  if (s.stored.lookup h).isSome ∧ stored.lookup h = none then s.log.length
  else s.since h

def step (index : TimeIndex) (s : Cluster) : ClusterEvent → Option Cluster
  | .transport k event calls now =>
      s.slaves[k]?.bind fun t => (t.step event).bind fun t' =>
        let s := { s with slaves := s.slaves.set k t' }
        match t.updateRead event with
        | some update => s.process calls { update, now }
        | none => some s
  | .handleExpire calls now =>
      (Master.handleExpire index calls now s.stored s.status).map fun tick =>
        { s with
          stored := tick.stored
          status := tick.status
          since := s.expire tick.stored }

end Cluster

/-- The master starts with an empty database. -/
def clusterSystem (index : TimeIndex) (slaves : Nat) :
    StepSystem Cluster ClusterEvent where
  init := {
    slaves := List.replicate slaves transportSystem.init
    stored := ∅, status := none, log := [], since := fun _ => 0 }
  step := Cluster.step index

open scoped List in
/-- One of some lists grows. -/
theorem perm_flatten_set {α : Type} {lists : List (List α)} {k : Nat}
    {list list' more : List α} (h : lists[k]? = some list)
    (hmore : (more ++ list).Perm list') :
    (more ++ lists.flatten).Perm (lists.set k list').flatten := by
  induction lists generalizing k with
  | nil => cases h
  | cons first lists ih =>
      cases k with
      | zero =>
          obtain rfl := Option.some.inj h
          rw [List.set_cons_zero, List.flatten_cons, List.flatten_cons,
            ← List.append_assoc]
          exact hmore.append_right _
      | succ k =>
          rw [List.set_cons_succ, List.flatten_cons, List.flatten_cons]
          calc more ++ (first ++ lists.flatten)
            _ ~ first ++ (more ++ lists.flatten) :=
              List.perm_append_comm_assoc _ _ _
            _ ~ first ++ (lists.set k list').flatten := (ih h).append_left first

/-- One of those that the lists are made of changes. -/
theorem perm_flatMap_set {α β : Type} {f : α → List β} {items : List α}
    {k : Nat} {item item' : α} {more : List β} (h : items[k]? = some item)
    (hmore : (more ++ f item).Perm (f item')) :
    (more ++ items.flatMap f).Perm ((items.set k item').flatMap f) := by
  rw [List.flatMap_def, List.flatMap_def, List.map_set]
  refine perm_flatten_set ?_ hmore
  rw [List.getElem?_map, h]
  rfl

namespace Transport

variable {t t' : Transport}

def receivedOf (session : MasterSession) : List Update :=
  session.stream.received

theorem processed_eq (t : Transport) :
    t.processed = (t.sessions.map receivedOf).reverse.flatten := by
  rw [processed, List.flatMap_def, List.map_reverse]
  rfl

/-- What has been processed is what the sessions have received. -/
theorem processed_congr
    (h : t'.sessions.map receivedOf = t.sessions.map receivedOf) :
    t'.processed = t.processed := by
  rw [processed_eq, processed_eq, h]

theorem processed_onSession {k : Nat} {may : MasterSession → Bool}
    {f : MasterSession → MasterSession} (h : t.onSession k may f = some t')
    (hreceived : ∀ session, receivedOf (f session) = receivedOf session) :
    t'.processed = t.processed := by
  obtain ⟨session, hfound, rfl⟩ := Option.map_eq_some_iff.mp h
  obtain ⟨hk, -⟩ := Option.filter_eq_some_iff.mp hfound
  obtain ⟨hlt, hget⟩ := List.getElem?_eq_some_iff.mp hk
  apply processed_congr
  rw [List.map_set, hreceived, ← hget, ← List.getElem_map receivedOf,
    List.set_getElem_self]
  rw [List.length_map]
  exact hlt

open scoped List in
/-- A session that takes the update it has read. -/
theorem processed_handleRead {k : Nat} {may : MasterSession → Bool}
    (h : t.onSession k may (MasterSession.handleRead false) = some t') :
    ∃ update, t.updateRead (.handleRead k false) = some update ∧
      (update :: t.processed).Perm t'.processed := by
  obtain ⟨session, hfound, rfl⟩ := Option.map_eq_some_iff.mp h
  obtain ⟨hk, -⟩ := Option.filter_eq_some_iff.mp hfound
  let update := Update.framing.decode session.stream.buffer
  refine ⟨update, by rw [updateRead, hk]; rfl, ?_⟩
  have hlists : (t.sessions.map receivedOf)[k]? =
      some (receivedOf session) := by
    rw [List.getElem?_map, hk]
    rfl
  have hreceived : receivedOf (session.handleRead false) =
      receivedOf session ++ [update] := rfl
  have hmore : ([update] ++ receivedOf session).Perm
      (receivedOf session ++ [update]) := (List.perm_append_singleton _ _).symm
  rw [processed_eq, processed_eq, List.map_set, hreceived]
  calc update :: (t.sessions.map receivedOf).reverse.flatten
    _ ~ update :: (t.sessions.map receivedOf).flatten :=
      (List.reverse_perm _).flatten.cons update
    _ ~ ((t.sessions.map receivedOf).set k
          (receivedOf session ++ [update])).flatten :=
      perm_flatten_set hlists hmore
    _ ~ ((t.sessions.map receivedOf).set k
          (receivedOf session ++ [update])).reverse.flatten :=
      (List.reverse_perm _).symm.flatten

theorem processed_follow {event : SlaveEvent} {slave : SlaveRun} :
    (t.follow event slave).processed = t.processed := by
  unfold follow
  split
  · rw [processed_eq, processed_eq, List.map_cons, List.reverse_cons,
      List.flatten_append]
    exact List.append_nil _
  · apply processed_congr
    dsimp only
    split
    · rename_i hsessions
      rw [hsessions]
      rfl
    · rfl
  · rfl
  · rfl

/-- A step processes the update that the master has read. -/
theorem processed_step {event : TransportEvent}
    (hstep : t.step event = some t') :
    ((t.updateRead event).toList ++ t.processed).Perm t'.processed := by
  cases event with
  | slave event =>
      rw [step] at hstep
      split_ifs at hstep
      obtain ⟨slave, -, rfl⟩ := Option.map_eq_some_iff.mp hstep
      exact List.Perm.of_eq processed_follow.symm
  | transfer n =>
      rw [step] at hstep
      split at hstep
      · rename_i u session sessions hwriting hsessions
        split_ifs at hstep
        obtain rfl := Option.some.inj hstep
        refine List.Perm.of_eq (processed_congr ?_).symm
        rw [hsessions, List.map_cons, List.map_cons]
        congr 1
        unfold receivedOf FrameStream.transfer
        split_ifs <;> rfl
      · cases hstep
  | breakOff k =>
      exact List.Perm.of_eq (processed_onSession hstep fun _ => rfl).symm
  | read k n =>
      exact List.Perm.of_eq (processed_onSession hstep fun _ => rfl).symm
  | handleRead k error =>
      cases error with
      | false =>
          obtain ⟨update, hread, hperm⟩ := processed_handleRead hstep
          rw [hread]
          exact hperm
      | true =>
          exact List.Perm.of_eq (processed_onSession hstep fun _ => rfl).symm
  | handleWritePing k error =>
      refine List.Perm.of_eq (processed_onSession hstep fun _ => ?_).symm
      cases error <;> rfl

end Transport

/-! What the fold of some updates counts. -/

theorem count_stepValue (value : Option Record) (p : Processed)
    (tally : Tally) :
    ((KeyedFold.stepValue Processed.rewritten value p).getD
        Record.zero).count tally =
      if p.isType .erase then 0
      else (value.getD Record.zero).count tally +
        if p.isType tally.updateType then 1 else 0 := by
  rw [KeyedFold.stepValue, Processed.rewritten]
  unfold Processed.isType
  cases htype : p.update.type with
  | none => simp
  | some type =>
      cases type with
      | report =>
          cases tally <;> simp [Record.report, Record.count_bump,
            Tally.updateType, Function.update_of_ne]
      | whitelist =>
          cases tally <;> simp [Record.whitelist, Record.count_bump,
            Tally.updateType, Function.update_of_ne]
      | erase => simp

/-- A count is that of the updates of its type since the last erase. -/
theorem count_foldl (log : List Processed) (tally : Tally) :
    ((log.foldl (KeyedFold.stepValue Processed.rewritten) none).getD
        Record.zero).count tally =
      BitVec.ofNat 32 (ofTally (sinceErase log) tally).length := by
  induction log using List.reverseRecOn with
  | nil => cases tally <;> rfl
  | append_singleton log p ih =>
      rw [List.foldl_append, List.foldl_cons, List.foldl_nil, count_stepValue,
        ih]
      cases herase : p.isType .erase with
      | true =>
          rw [if_pos rfl, sinceErase_append_erase log herase]
          rfl
      | false =>
          rw [if_neg Bool.false_ne_true, sinceErase_append log herase,
            ofTally_append, List.length_append, BitVec.ofNat_add]
          congr 1
          split_ifs <;> rfl

/-- A reply tells of no more reports or whitelistings than `passed`. -/
def TellsAtMost (passed : UpdateType → Nat) (reply : Packet) : Prop :=
  ∃ count whitelistCount, count ≤ passed .report ∧
    whitelistCount ≤ passed .whitelist ∧
    reply.get "Count".toList = decimal count ∧
    reply.get "WL-Count".toList = decimal whitelistCount

theorem tellsAtMost_zero (passed : UpdateType → Nat) (res : Packet) :
    TellsAtMost passed (res.setCounts 0 0) :=
  ⟨0, 0, Nat.zero_le _, Nat.zero_le _, get_setCounts _ _ _⟩

namespace Cluster

variable {index : TimeIndex} {s s' : Cluster}

/-- How many updates of a type were passed to the slaves for a hash. -/
def passed (s : Cluster) (h : Hash) (type : UpdateType) : Nat :=
  (s.slaves.flatMap fun t => t.slave.passed).countP fun u =>
    u.ghash = h ∧ u.type = some type

/-- What was written for a hash since its record last expired. -/
def ownSince (s : Cluster) (h : Hash) : List Processed :=
  ownUpdates (s.log.drop (s.since h)) h

/-- Every update that was written is one that was passed to a slave, and none
is written more often than it was passed.  A record is what the updates for
its hash add up to since it last expired, and counts no more than were passed;
a check, by whatever digest, is answered with no more either. -/
structure CountsOnce (s : Cluster) : Prop where
  logged : (s.log.map Processed.update).Subperm
    (s.slaves.flatMap fun t => t.slave.passed)
  stored : ∀ h, s.stored.lookup h =
    (s.ownSince h).foldl (KeyedFold.stepValue Processed.rewritten) none
  count_le : ∀ h r tally, s.stored.lookup h = some r →
    (r.count tally).toNat ≤ s.passed h tally.updateType
  answered : ∀ (server : ServerState) (now : Readings) digest h res,
    decodeSignature digest = some h →
      TellsAtMost (s.passed h) (server.check s.stored now digest res).2

structure Inv (s : Cluster) : Prop where
  slaves : ∀ t ∈ s.slaves, t.Inv
  logged : (s.log.map Processed.update).Subperm
    (s.slaves.flatMap Transport.processed)
  since_le : ∀ h, s.since h ≤ s.log.length
  stored : ∀ h, s.stored.lookup h =
    (s.ownSince h).foldl (KeyedFold.stepValue Processed.rewritten) none

theorem inv_init (slaves : Nat) : (clusterSystem index slaves).init.Inv where
  slaves := by
    intro t ht
    rw [List.eq_of_mem_replicate ht]
    exact Transport.inv_init
  logged := List.nil_subperm
  since_le := fun h => le_refl _
  stored := fun h => rfl

/-- What of some slaves is processed is what they have been passed. -/
theorem processed_sublist {slaves : List Transport}
    (h : ∀ t ∈ slaves, t.Inv) :
    (slaves.flatMap Transport.processed).Sublist
      (slaves.flatMap fun t => t.slave.passed) := by
  induction slaves with
  | nil => exact List.Sublist.refl []
  | cons t slaves ih =>
      obtain ⟨ht, hothers⟩ := List.forall_mem_cons.mp h
      rw [List.flatMap_cons, List.flatMap_cons]
      exact ht.once.append (ih hothers)

theorem Inv.logged_passed (hs : s.Inv) :
    (s.log.map Processed.update).Subperm
      (s.slaves.flatMap fun t => t.slave.passed) :=
  hs.logged.trans (processed_sublist hs.slaves).subperm

theorem sinceErase_sublist (log : List Processed) :
    (sinceErase log).Sublist log := by
  have hreverse := (List.takeWhile_sublist (l := log.reverse)
    fun p => !p.isType .erase).reverse
  rwa [List.reverse_reverse] at hreverse

/-- The counts of a type in the log. -/
theorem countP_ownUpdates (log : List Processed) (h : Hash) (tally : Tally) :
    (ofTally (ownUpdates log h) tally).length =
      (log.map Processed.update).countP fun u =>
        u.ghash = h ∧ u.type = some tally.updateType := by
  rw [ofTally, ownUpdates, List.filter_filter, ← List.countP_eq_length_filter,
    List.countP_map]
  congr 1
  funext p
  simp [Processed.isType, Bool.and_comm]

theorem Inv.count_le (hs : s.Inv) {h : Hash} {r : Record}
    (hr : s.stored.lookup h = some r) (tally : Tally) :
    (r.count tally).toNat ≤ s.passed h tally.updateType := by
  have hcount := count_foldl (s.ownSince h) tally
  rw [← hs.stored h, hr, Option.getD_some] at hcount
  have hown : (s.ownSince h).Sublist (ownUpdates s.log h) :=
    (List.drop_sublist _ _).filter _
  calc (r.count tally).toNat
    _ ≤ (ofTally (sinceErase (s.ownSince h)) tally).length := by
        rw [hcount, BitVec.toNat_ofNat]
        exact Nat.mod_le _ _
    _ ≤ (ofTally (ownUpdates s.log h) tally).length :=
        (((sinceErase_sublist _).trans hown).filter _).length_le
    _ = (s.log.map Processed.update).countP fun u =>
          u.ghash = h ∧ u.type = some tally.updateType :=
        countP_ownUpdates s.log h tally
    _ ≤ s.passed h tally.updateType := hs.logged_passed.countP_le _

/-- A check is answered with the counts of the record, or with zeros. -/
theorem check_cases (server : ServerState) (stored : Database)
    (now : Readings) {digest : Text} {h : Hash} (res : Packet)
    (hdigest : decodeSignature digest = some h) :
    (∃ r, stored.lookup h = some r ∧
      (server.check stored now digest res).2 = (res.setCounts 0 0).setCounts
        (r.count .report).toNat (r.count .whitelist).toNat) ∨
    (server.check stored now digest res).2 = res.setCounts 0 0 := by
  rw [ServerState.check, Database.get, hdigest]
  cases hlookup : stored.lookup h with
  | none => exact Or.inr (by simp [hlookup])
  | some r =>
      simp only [hlookup]
      by_cases hreset : r.count .report = 0 ∧ r.count .whitelist = 0
      · rw [if_pos hreset]
        exact Or.inr rfl
      · rw [if_neg hreset]
        simp only [if_true]
        by_cases hold : r.count .report = 1 ∧
            (now 2 : Int) - r.entered.toNat > ServerState.recordAge
        · rw [if_pos hold]
          exact Or.inr rfl
        · rw [if_neg hold]
          exact Or.inl ⟨r, rfl, rfl⟩

theorem Inv.countsOnce (hs : s.Inv) : s.CountsOnce where
  logged := hs.logged_passed
  stored := hs.stored
  count_le h r tally hr := hs.count_le hr tally
  answered := by
    intro server now digest h res hdigest
    rcases check_cases server s.stored now res hdigest with
      ⟨r, hr, hreply⟩ | hreply
    · rw [hreply]
      exact ⟨_, _, hs.count_le hr .report, hs.count_le hr .whitelist,
        get_setCounts _ _ _⟩
    · rw [hreply]
      exact tellsAtMost_zero _ res

theorem ownUpdates_append (log : List Processed) (p : Processed) (h : Hash) :
    ownUpdates (log ++ [p]) h =
      if p.update.ghash = h then ownUpdates log h ++ [p]
      else ownUpdates log h := by
  rw [ownUpdates, List.filter_append]
  split_ifs with hhash
  · rw [List.filter_singleton]
    simp [hhash, ownUpdates]
  · rw [List.filter_singleton]
    simp [hhash, ownUpdates]

/-- The stored record of the hash is rewritten and the others stay, or a call
has failed and nothing is. -/
theorem process_cases {calls : DbCalls} {p : Processed}
    (hprocess : s.process calls p = some s') :
    s'.slaves = s.slaves ∧ s'.since = s.since ∧
      (calls = .succeed ∧ s'.log = s.log ++ [p] ∧
          (∀ h, s'.stored.lookup h = if p.update.ghash = h then
            KeyedFold.stepValue Processed.rewritten (s.stored.lookup h) p
            else s.stored.lookup h) ∨
        calls ≠ .succeed ∧ s'.log = s.log ∧ s'.stored = s.stored) := by
  obtain ⟨stored, hprocessed, rfl⟩ := Option.map_eq_some_iff.mp hprocess
  refine ⟨rfl, rfl, ?_⟩
  by_cases hcalls : calls = .succeed
  · obtain ⟨stored', hstored', hlookup⟩ :=
      Database.processUpdate_lookup s.stored p.update p.now
    rw [hcalls, hstored'] at hprocessed
    obtain rfl := Option.some.inj hprocessed
    refine Or.inl ⟨hcalls, ?_, hlookup⟩
    dsimp only
    rw [if_pos hcalls]
  · have hkept := Database.processUpdate_eq_self hcalls hprocessed
    refine Or.inr ⟨hcalls, ?_, hkept⟩
    dsimp only
    rw [if_neg hcalls]

/-- Something happens to a slave or its sessions, and the update that was read
is processed. -/
theorem transport_cases {k : Nat} {event : TransportEvent} {calls : DbCalls}
    {now : Uint32}
    (hstep : s.step index (.transport k event calls now) = some s') :
    ∃ t t', s.slaves[k]? = some t ∧ t.step event = some t' ∧
      (t.updateRead event = none ∧
          s' = { s with slaves := s.slaves.set k t' } ∨
        ∃ update, t.updateRead event = some update ∧
          { s with slaves := s.slaves.set k t' }.process calls
            { update, now } = some s') := by
  obtain ⟨t, hk, hstep⟩ := Option.bind_eq_some_iff.mp hstep
  obtain ⟨t', ht', hstep⟩ := Option.bind_eq_some_iff.mp hstep
  refine ⟨t, t', hk, ht', ?_⟩
  cases hread : t.updateRead event with
  | none =>
      rw [hread] at hstep
      exact Or.inl ⟨rfl, (Option.some.inj hstep).symm⟩
  | some update =>
      rw [hread] at hstep
      exact Or.inr ⟨update, rfl, hstep⟩

/-- One of the slaves takes a step. -/
theorem slaves_set {k : Nat} {t t' : Transport} {event : TransportEvent}
    (hslaves : ∀ t ∈ s.slaves, t.Inv) (hk : s.slaves[k]? = some t)
    (ht' : t.step event = some t') :
    (∀ other ∈ s.slaves.set k t', other.Inv) ∧
      ((t.updateRead event).toList ++
        s.slaves.flatMap Transport.processed).Perm
          ((s.slaves.set k t').flatMap Transport.processed) := by
  constructor
  · intro other hother
    rcases List.mem_or_eq_of_mem_set hother with hold | rfl
    · exact hslaves other hold
    · exact Transport.inv_step (hslaves t (List.mem_of_getElem? hk)) trivial ht'
  · exact perm_flatMap_set hk (Transport.processed_step ht')

theorem Inv.process {calls : DbCalls} {p : Processed}
    (hslaves : ∀ t ∈ s.slaves, t.Inv)
    (hlogged : (p.update :: s.log.map Processed.update).Subperm
      (s.slaves.flatMap Transport.processed))
    (hsince : ∀ h, s.since h ≤ s.log.length)
    (hstored : ∀ h, s.stored.lookup h =
      (s.ownSince h).foldl (KeyedFold.stepValue Processed.rewritten) none)
    (hprocess : s.process calls p = some s') : s'.Inv := by
  obtain ⟨hsame, hexpired, ⟨-, hlog, hlookup⟩ | ⟨-, hlog, hkept⟩⟩ :=
    process_cases hprocess
  · refine ⟨hsame ▸ hslaves, ?_, fun h => ?_, fun h => ?_⟩
    · rw [hlog, hsame, List.map_append]
      exact (List.perm_append_singleton _ _).subperm.trans hlogged
    · rw [hexpired, hlog, List.length_append]
      exact (hsince h).trans (Nat.le_add_right _ _)
    · rw [ownSince, hexpired, hlog, hlookup h, hstored h,
        List.drop_append_of_le_length (hsince h), ownUpdates_append]
      split_ifs
      · rw [List.foldl_append]
        rfl
      · rfl
  · refine ⟨hsame ▸ hslaves, ?_, ?_, ?_⟩
    · rw [hlog, hsame]
      exact (List.sublist_cons_self _ _).subperm.trans hlogged
    · rw [hexpired, hlog]
      exact hsince
    · intro h
      rw [ownSince, hexpired, hlog, hkept]
      exact hstored h

theorem inv_transport {k : Nat} {event : TransportEvent} {calls : DbCalls}
    {now : Uint32} (hs : s.Inv)
    (hstep : s.step index (.transport k event calls now) = some s') :
    s'.Inv := by
  obtain ⟨t, t', hk, ht', hcases⟩ := transport_cases hstep
  obtain ⟨hslaves, hprocessed⟩ := slaves_set hs.slaves hk ht'
  rcases hcases with ⟨hread, rfl⟩ | ⟨update, hread, hprocess⟩
  · rw [hread] at hprocessed
    exact ⟨hslaves, hs.logged.trans hprocessed.subperm, hs.since_le,
      hs.stored⟩
  · rw [hread] at hprocessed
    have hlogged := ((List.subperm_cons update).mpr hs.logged).trans
      hprocessed.subperm
    exact Inv.process (s := { s with slaves := s.slaves.set k t' }) hslaves
      hlogged hs.since_le hs.stored hprocess

theorem inv_handleExpire {calls : Master.ExpireTickCalls} {now : Uint32}
    (hs : s.Inv)
    (hstep : s.step index (.handleExpire calls now) = some s') : s'.Inv := by
  obtain ⟨tick, htick, rfl⟩ := Option.map_eq_some_iff.mp hstep
  have hexpired := (Master.handleExpire_eq_some htick).expired
  refine ⟨hs.slaves, hs.logged, fun h => ?_, fun h => ?_⟩
  · change s.expire tick.stored h ≤ s.log.length
    rw [expire]
    split_ifs
    · exact le_refl _
    · exact hs.since_le h
  · change tick.stored.lookup h = (ownUpdates
      (s.log.drop (s.expire tick.stored h)) h).foldl _ none
    rw [expire]
    split_ifs with hgone
    · rw [hgone.2, List.drop_length]
      rfl
    · refine Eq.trans ?_ (hs.stored h)
      by_cases hdeleted : calls.expire.commit = true ∧ h ∈ Master.deletions
          calls.expire.del 0
            (Master.tickCounted index calls now s.stored s.status)
      · -- its record was not stored, or it would have expired
        have hnone := hexpired.gone h hdeleted.2 hdeleted.1
        have hold : s.stored.lookup h = none := by
          by_contra hstored
          exact hgone ⟨Option.isSome_iff_ne_none.mpr hstored, hnone⟩
        exact hnone.trans hold.symm
      · exact hexpired.kept h hdeleted

theorem inv_step (slaves : Nat) :
    (clusterSystem index slaves).Preserves Inv fun _ _ => True := by
  intro s s' event hs _ hstep
  change s.step index event = some s' at hstep
  cases event with
  | transport k event calls now => exact inv_transport hs hstep
  | handleExpire calls now => exact inv_handleExpire hs hstep

/-- In every run nothing is counted that was not passed to a slave, and
nothing twice. -/
theorem always_countsOnce (index : TimeIndex) (slaves : Nat)
    (events : List ClusterEvent) :
    (clusterSystem index slaves).Always CountsOnce events :=
  StepSystem.always_of_invariant _ (inv_init slaves) (inv_step slaves)
    (fun _ hs => hs.countsOnce) events

end Cluster

/-! What was passed to the slaves only grows. -/

theorem SlaveRun.passed_step {s s' : SlaveRun} {event : SlaveEvent}
    (h : s.step event = some s') : ∃ more, s'.passed = s.passed ++ more := by
  cases event with
  | handleAccept error =>
      rw [step] at h
      split_ifs at h
      obtain rfl := Option.some.inj h
      exact ⟨[], (List.append_nil _).symm⟩
  | sessionHandleRead k incoming =>
      rw [step] at h
      split at h
      · obtain rfl := Option.some.inj h
        exact ⟨incoming.toList, rfl⟩
      · cases h
  | handleConnect i error =>
      obtain ⟨link, -, rfl⟩ := Option.map_eq_some_iff.mp h
      exact ⟨[], (List.append_nil _).symm⟩
  | handleWriteUpdate i error =>
      obtain ⟨written, -, rfl⟩ := Option.map_eq_some_iff.mp h
      exact ⟨[], (List.append_nil _).symm⟩
  | timer =>
      obtain ⟨link, -, rfl⟩ := Option.map_eq_some_iff.mp h
      exact ⟨[], (List.append_nil _).symm⟩
  | timerCancelled =>
      obtain ⟨link, -, rfl⟩ := Option.map_eq_some_iff.mp h
      exact ⟨[], (List.append_nil _).symm⟩

theorem Transport.slave_follow (t : Transport) (event : SlaveEvent)
    (slave : SlaveRun) : (t.follow event slave).slave = slave := by
  unfold follow
  split <;> rfl

theorem Transport.passed_step {t t' : Transport} {event : TransportEvent}
    (h : t.step event = some t') :
    ∃ more, t'.slave.passed = t.slave.passed ++ more := by
  have hsession : ∀ {k may f}, t.onSession k may f = some t' →
      ∃ more, t'.slave.passed = t.slave.passed ++ more := by
    intro k may f hsession
    obtain ⟨session, -, rfl⟩ := Option.map_eq_some_iff.mp hsession
    exact ⟨[], (List.append_nil _).symm⟩
  cases event with
  | slave event =>
      rw [step] at h
      split_ifs at h
      obtain ⟨slave, hslave, rfl⟩ := Option.map_eq_some_iff.mp h
      rw [slave_follow]
      exact SlaveRun.passed_step hslave
  | transfer n =>
      rw [step] at h
      split at h
      · split_ifs at h
        obtain rfl := Option.some.inj h
        exact ⟨[], (List.append_nil _).symm⟩
      · cases h
  | breakOff k => exact hsession h
  | read k n => exact hsession h
  | handleRead k error => exact hsession h
  | handleWritePing k error => exact hsession h

namespace Cluster

variable {index : TimeIndex} {s s' : Cluster}

/-- What a step does to the slaves. -/
theorem slaves_step {event : ClusterEvent}
    (hstep : s.step index event = some s') :
    s'.slaves = s.slaves ∨ ∃ k event t t', s.slaves[k]? = some t ∧
      t.step event = some t' ∧ s'.slaves = s.slaves.set k t' := by
  cases event with
  | transport k event calls now =>
      obtain ⟨t, t', hk, ht', hcases⟩ := transport_cases hstep
      refine Or.inr ⟨k, event, t, t', hk, ht', ?_⟩
      rcases hcases with ⟨-, rfl⟩ | ⟨update, -, hprocess⟩
      · rfl
      · exact (process_cases hprocess).1
  | handleExpire calls now =>
      obtain ⟨tick, -, rfl⟩ := Option.map_eq_some_iff.mp hstep
      exact Or.inl rfl

/-- A step passes updates to slaves or none, and takes none back. -/
theorem passed_step {event : ClusterEvent}
    (hstep : s.step index event = some s') (h : Hash) (type : UpdateType) :
    s.passed h type ≤ s'.passed h type := by
  rw [passed, passed]
  rcases slaves_step hstep with hsame | ⟨k, event, t, t', hk, ht', hset⟩
  · rw [hsame]
  · obtain ⟨more, hmore⟩ := Transport.passed_step ht'
    have hgrown : (more ++ t.slave.passed).Perm t'.slave.passed :=
      List.perm_append_comm.trans (List.Perm.of_eq hmore.symm)
    have hperm := perm_flatMap_set (f := fun t : Transport => t.slave.passed)
      hk hgrown
    rw [hset, ← hperm.countP_eq, List.countP_append]
    exact Nat.le_add_left _ _

end Cluster

end BohunoPyzord
