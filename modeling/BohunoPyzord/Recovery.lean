/-
What can still become of the updates that were passed to the slaves.  Those
that are lost stay lost.  All others can be written, whatever state the slaves
and their connections are in.
-/
import BohunoPyzord.TransportProgress

namespace BohunoPyzord

theorem sublist_flatMap_set {α β : Type} {f : α → List β} {items : List α}
    {k : Nat} {item item' : α} (h : items[k]? = some item)
    (hgrown : (f item).Sublist (f item')) :
    (items.flatMap f).Sublist ((items.set k item').flatMap f) := by
  induction items generalizing k with
  | nil => cases h
  | cons first items ih =>
      cases k with
      | zero =>
          obtain rfl := Option.some.inj h
          rw [List.set_cons_zero, List.flatMap_cons, List.flatMap_cons]
          exact hgrown.append (List.Sublist.refl _)
      | succ k =>
          rw [List.set_cons_succ, List.flatMap_cons, List.flatMap_cons]
          exact (List.Sublist.refl _).append (ih h)

theorem map_set_eq {α β : Type} {f : α → β} {items : List α}
    {k : Nat} {item item' : α} (h : items[k]? = some item)
    (hsame : f item' = f item) : (items.set k item').map f = items.map f := by
  obtain ⟨hk, rfl⟩ := List.getElem?_eq_some_iff.mp h
  rw [List.map_set, hsame, ← List.getElem_map f (h := by simpa using hk),
    List.set_getElem_self]

namespace ClusterLedger

/-- The updates that the master can never be given. -/
def lost (s : ClusterLedger) : List Update :=
  s.cluster.slaves.flatMap Transport.lost

/-- What there is to be done for the updates that are on their way. -/
def rank (s : ClusterLedger) : Nat :=
  (s.cluster.slaves.map Transport.rank).sum

/-- All updates that can be written can still be written, whatever has become
of the others; and those that are lost cannot be. -/
structure Recovers (index : TimeIndex) (slaves : Nat)
    (s : ClusterLedger) : Prop where
  written : (clusterLedgerSystem index slaves).Reaches (fun s' =>
    s'.refused = s.refused ∧ s'.expired = s.expired ∧
      s'.cluster.slaves.map (fun t => t.slave.passed) =
        s.cluster.slaves.map (fun t => t.slave.passed) ∧
      (s'.cluster.log.map Processed.update ++ s.refused ++ s.lost).Perm
        (s.cluster.slaves.flatMap fun t => t.slave.passed)) s
  lost : ∀ events s',
    (clusterLedgerSystem index slaves).runFrom s events = some s' →
      (s'.cluster.log.map Processed.update ++ s'.refused ++ s.lost).Subperm
        (s'.cluster.slaves.flatMap fun t => t.slave.passed)

/-- What is as it was while the updates are brought on. -/
structure Keeps (s s' : ClusterLedger) : Prop where
  refused : s'.refused = s.refused
  expired : s'.expired = s.expired
  lost : s'.lost = s.lost
  passed : s'.cluster.slaves.map (fun t => t.slave.passed) =
    s.cluster.slaves.map fun t => t.slave.passed

structure Recoverable (s : ClusterLedger) : Prop where
  inv : s.Inv
  ready : ∀ t ∈ s.cluster.slaves, t.Ready

variable {index : TimeIndex} {slaves : Nat} {s s' : ClusterLedger}

theorem recoverable_init (slaves : Nat) :
    (clusterLedgerSystem index slaves).init.Recoverable where
  inv := inv_init slaves
  ready t ht := by
    rw [List.eq_of_mem_replicate ht]
    exact Transport.ready_init

theorem recoverable_step (slaves : Nat) :
    (clusterLedgerSystem index slaves).Preserves Recoverable
      fun _ _ => True := by
  intro s s' event hs _ hstep
  refine ⟨inv_step slaves hs.inv trivial hstep, ?_⟩
  obtain ⟨cluster, hcluster, rfl⟩ := Option.map_eq_some_iff.mp hstep
  change ∀ t ∈ cluster.slaves, t.Ready
  rcases Cluster.slaves_step hcluster with
    hsame | ⟨k, event, t, t', hk, ht', hset⟩
  · rw [hsame]
    exact hs.ready
  · rw [hset]
    intro other hother
    rcases List.mem_or_eq_of_mem_set hother with hold | rfl
    · exact hs.ready other hold
    · have ht := List.mem_of_getElem? hk
      exact Transport.ready_step (hs.inv.slaves t ht) (hs.ready t ht) ht'

/-- What is lost stays lost. -/
theorem lost_step (hs : s.Inv) {event : ClusterEvent}
    (hstep : s.step index event = some s') : s.lost.Sublist s'.lost := by
  obtain ⟨cluster, hcluster, rfl⟩ := Option.map_eq_some_iff.mp hstep
  change s.lost.Sublist (cluster.slaves.flatMap Transport.lost)
  rcases Cluster.slaves_step hcluster with
    hsame | ⟨k, event, t, t', hk, ht', hset⟩
  · rw [hsame]
    exact List.Sublist.refl _
  · rw [hset]
    have ht := hs.slaves t (List.mem_of_getElem? hk)
    exact sublist_flatMap_set hk (Transport.lost_step ht ht')

theorem Inv.subperm_lost (hs : s.Inv) :
    (s.cluster.log.map Processed.update ++ s.refused ++ s.lost).Subperm
      (s.cluster.slaves.flatMap fun t => t.slave.passed) := by
  have hlost : s.lost.Sublist s.onItsWay :=
    flatMap_sublist fun t _ => t.lost_sublist
  exact ((List.Sublist.refl _).append hlost).subperm.trans hs.passed.subperm

theorem recoverable_run (hs : s.Recoverable) {events : List ClusterEvent}
    (hrun : (clusterLedgerSystem index slaves).runFrom s events = some s') :
    s'.Inv ∧ s.lost.Sublist s'.lost := by
  have hpreserves : (clusterLedgerSystem index slaves).Preserves
      (fun mid => mid.Inv ∧ s.lost.Sublist mid.lost) fun _ _ => True := by
    intro mid mid' event hmid _ hstep
    exact ⟨inv_step slaves hmid.1 trivial hstep,
      hmid.2.trans (lost_step hmid.1 hstep)⟩
  exact (clusterLedgerSystem index slaves).runFrom_invariant_of_each hpreserves
    ⟨hs.inv, List.Sublist.refl _⟩
    ((clusterLedgerSystem index slaves).eachFrom_true s events) hrun

/-- A step of a slave or its sessions, with all calls on the database
succeeding. -/
theorem exists_transport (index : TimeIndex) {k : Nat} {t t' : Transport}
    {event : TransportEvent} (hk : s.cluster.slaves[k]? = some t)
    (ht' : t.step event = some t') :
    ∃ cluster, s.cluster.step index (.transport k event .succeed 0) =
        some cluster ∧
      cluster.slaves = s.cluster.slaves.set k t' := by
  rw [Cluster.step, hk, Option.bind_some, ht', Option.bind_some]
  cases t.updateRead event with
  | none => exact ⟨_, rfl, rfl⟩
  | some update =>
      obtain ⟨stored, hstored, -⟩ :=
        Database.processUpdate_lookup s.cluster.stored update 0
      simp only [Cluster.process, hstored]
      exact ⟨_, rfl, rfl⟩

/-- While there is something to be written a step can bring it on. -/
theorem drained_or_advances (index : TimeIndex) (hs : s.Recoverable) :
    (∀ t ∈ s.cluster.slaves, t.Drained) ∨
      ∃ event s', s.step index event = some s' ∧ s'.rank < s.rank ∧
        s.Keeps s' := by
  by_cases hall : ∀ t ∈ s.cluster.slaves, t.Drained
  · exact Or.inl hall
  · push Not at hall
    obtain ⟨t, ht, hnot⟩ := hall
    obtain ⟨k, hk⟩ := List.getElem?_of_mem ht
    have hinv := hs.inv.slaves t ht
    obtain ⟨event, t', ht', hless, hpassed, hkeeps⟩ :=
      (Transport.drained_or_advances hinv (hs.ready t ht)).resolve_left hnot
    obtain ⟨cluster, hcluster, hslaves⟩ := exists_transport index hk ht'
    refine Or.inr ⟨.transport k event .succeed 0, { s with cluster }, ?_, ?_,
      ⟨rfl, rfl, ?_, ?_⟩⟩
    · rw [step, hcluster, enter, if_pos rfl]
      rfl
    · change (cluster.slaves.map Transport.rank).sum < _
      rw [hslaves]
      exact sum_map_set_lt hk hless
    · change cluster.slaves.flatMap Transport.lost = _
      rw [hslaves, List.flatMap_def,
        map_set_eq hk (Transport.lost_step_eq hinv hkeeps ht')]
      rfl
    · change (cluster.slaves.map fun t => t.slave.passed) = _
      rw [hslaves]
      exact map_set_eq (f := fun t : Transport => t.slave.passed) hk hpassed

/-- Where all that can be written is written. -/
theorem Inv.perm_of_drained (hs : s.Inv)
    (hall : ∀ t ∈ s.cluster.slaves, t.Drained) :
    (s.cluster.log.map Processed.update ++ s.refused ++ s.lost).Perm
      (s.cluster.slaves.flatMap fun t => t.slave.passed) := by
  have hsame : s.onItsWay = s.lost := by
    rw [onItsWay, lost, List.flatMap_def, List.flatMap_def]
    refine congrArg List.flatten (List.map_congr_left fun t ht => ?_)
    exact (hall t ht).onItsWay_eq (hs.slaves t ht)
  rw [← hsame]
  exact hs.passed

theorem Keeps.trans {mid : ClusterLedger} (h : s.Keeps mid)
    (h' : mid.Keeps s') : s.Keeps s' where
  refused := h'.refused.trans h.refused
  expired := h'.expired.trans h.expired
  lost := h'.lost.trans h.lost
  passed := h'.passed.trans h.passed

theorem Recoverable.written (hs : s.Recoverable) :
    (clusterLedgerSystem index slaves).Reaches (fun s' =>
      (s'.Recoverable ∧ s.Keeps s') ∧
        ∀ t ∈ s'.cluster.slaves, t.Drained) s := by
  refine (clusterLedgerSystem index slaves).reaches_of_progress rank ?_
    ⟨hs, rfl, rfl, rfl, rfl⟩
  rintro mid ⟨hmid, hkeeps⟩
  rcases drained_or_advances index hmid with
    hall | ⟨event, s', hstep, hless, hnext⟩
  · exact Or.inl hall
  · exact Or.inr ⟨event, s', hstep,
      ⟨recoverable_step slaves hmid trivial hstep, hkeeps.trans hnext⟩,
      hless⟩

theorem Recoverable.recovers (hs : s.Recoverable) :
    s.Recovers index slaves where
  written := by
    obtain ⟨events, s', hrun, ⟨hs', hkeeps⟩, hall⟩ := hs.written
    refine ⟨events, s', hrun, hkeeps.refused, hkeeps.expired, hkeeps.passed,
      ?_⟩
    rw [← hkeeps.refused, ← hkeeps.lost, List.flatMap_def, ← hkeeps.passed,
      ← List.flatMap_def]
    exact hs'.inv.perm_of_drained hall
  lost events s' hrun := by
    obtain ⟨hs', hlost⟩ := recoverable_run hs hrun
    exact ((List.Sublist.refl _).append hlost).subperm.trans hs'.subperm_lost

/-- In every state of every run, whatever is broken: all that was passed can
still be written, but for what is lost or was refused. -/
theorem always_recovers (index : TimeIndex) (slaves : Nat)
    (events : List ClusterEvent) :
    (clusterLedgerSystem index slaves).Always (Recovers index slaves)
      events :=
  StepSystem.always_of_invariant _ (recoverable_init slaves)
    (recoverable_step slaves) (fun _ hs => hs.recovers) events

end ClusterLedger

end BohunoPyzord
