/-
The connections of the HTTP server.  While the server runs, one that was
accepted is managed, open and has one operation pending, or it is stopped,
closed and has none; the accept loop goes on until an accept fails.
-/
import BohunoPyzord.HttpServer

namespace BohunoPyzord

namespace HttpServer

variable {A : Type}

/-- The operations of a connection that have not been cancelled. -/
def pendingOf (s : HttpServer A) (c : Nat) : Nat := s.io.standing (isOf c)

def accepts (s : HttpServer A) : Nat := s.io.standing isAccept

/-- The connection manager has the accepted connections that are not closed. -/
structure Kept (s : HttpServer A) : Prop where
  accepted : ∀ c, c < s.new_connection_ ↔ c ∈ s.connections_ ∨ c ∈ s.closed
  apart : ∀ c ∈ s.connections_, c ∉ s.closed
  accepting : s.accepts ≤ 1
  alive : s.io.Alive

/-- Each connection that it has waits for one operation, and no other
connection waits for any. -/
structure Managed (s : HttpServer A) : Prop extends Kept s where
  pending : ∀ c, s.pendingOf c = if c ∈ s.connections_ then 1 else 0

/-- All connections are closed, and whatever was pending is cancelled. -/
structure Stopped (s : HttpServer A) : Prop where
  connections_ : s.connections_ = ∅
  closed : ∀ c, c < s.new_connection_ → c ∈ s.closed
  cancelled : ∀ op ∈ s.io.operations, op.progress ≠ .outstanding

/-- What holds in every state. -/
def Orderly (s : HttpServer A) : Prop :=
  (s.phase = .running → s.Managed) ∧ (s.phase = .stopped → s.Stopped)

/-- One managed connection has nothing pending, the others have. -/
structure Lacks (s : HttpServer A) (c : Nat) : Prop extends Kept s where
  mem : c ∈ s.connections_
  none : s.pendingOf c = 0
  others : ∀ other, other ≠ c →
    s.pendingOf other = if other ∈ s.connections_ then 1 else 0

variable {s s' : HttpServer A} {c : Nat} {op : Operation HttpOperation}
  {io : IoService HttpOperation} {i : Nat}

theorem isOf_eq_false (operation : HttpOperation)
    (h : operation.serves ≠ some c) : isOf c operation = false :=
  decide_eq_false h

/-- The operation of a connection is taken off. -/
theorem Managed.lacks (h : s.Managed) (htake : s.io.take i = some (op, io))
    (hop : op.kind.serves = some c) :
    { s with io }.Lacks c ∧ { s with io }.accepts = s.accepts := by
  obtain ⟨hprogress, halive⟩ := h.alive.take htake
  have hsum : ∀ other, s.pendingOf other = { s with io }.pendingOf other +
      (if other = c then 1 else 0) := by
    intro other
    have hother : IoService.Stands (isOf other) op ↔ other = c := by
      rw [IoService.Stands, isOf, hop, decide_eq_true_eq, Option.some.injEq]
      exact ⟨fun h => h.1.symm, fun h => ⟨h.symm, hprogress⟩⟩
    rw [pendingOf, IoService.standing_take _ htake]
    simp only [hother]
    rfl
  have haccepts : { s with io }.accepts = s.accepts := by
    have hnot : ¬ IoService.Stands isAccept op := by
      rintro ⟨haccept, -⟩
      cases hkind : op.kind <;> simp [hkind, isAccept, HttpOperation.serves] at *
    rw [accepts, accepts, IoService.standing_take _ htake, if_neg hnot]
    rfl
  have hmem : c ∈ s.connections_ := by
    have hone := hsum c
    rw [h.pending, if_pos rfl] at hone
    by_contra hnot
    rw [if_neg hnot] at hone
    omega
  refine ⟨⟨⟨h.accepted, h.apart, haccepts.trans_le h.accepting, halive⟩,
    hmem, ?_, ?_⟩, haccepts⟩
  · have hone := hsum c
    rw [h.pending, if_pos hmem, if_pos rfl] at hone
    omega
  · intro other hother
    have hsame := hsum other
    rw [h.pending, if_neg hother] at hsame
    exact hsame.symm

/-- The operation that a connection lacks is started. -/
theorem Lacks.managed_start (h : s.Lacks c) {operation : HttpOperation}
    (hop : operation.serves = some c) :
    (s.start operation).Managed ∧ (s.start operation).accepts = s.accepts := by
  have haccepts : (s.start operation).accepts = s.accepts := by
    have hnot : isAccept operation = false := by
      cases operation with
      | accept c => cases hop
      | _ => rfl
    rw [accepts, start, IoService.standing_start, hnot]
    rfl
  refine ⟨⟨⟨h.accepted, h.apart, haccepts.trans_le h.accepting,
    h.alive.start operation⟩, ?_⟩, haccepts⟩
  intro other
  rw [pendingOf, start, IoService.standing_start, isOf, hop]
  change s.pendingOf other + _ = if other ∈ s.connections_ then 1 else 0
  by_cases hother : other = c
  · rw [hother, h.none, if_pos h.mem, if_pos (by simp)]
  · have hnot : ¬ decide (some c = some other) = true := by
      simpa using Ne.symm hother
    rw [h.others other hother, if_neg hnot, Nat.add_zero]

/-- Neither the application nor what a connection has read and written
matters to that. -/
theorem Managed.update (h : s.Managed) (connection : Nat → Connection)
    (application : A) : { s with connection, application }.Managed :=
  ⟨⟨h.accepted, h.apart, h.accepting, h.alive⟩, h.pending⟩

/-- A connection that has nothing pending is stopped. -/
theorem Lacks.managed_stop (h : s.Lacks c) :
    (s.managerStop c).Managed ∧ (s.managerStop c).accepts = s.accepts := by
  have hio : s.io.cancel (isOf c) = s.io :=
    IoService.cancel_eq_self_of_standing _ h.none
  have hsame : s.managerStop c = { s with
      connections_ := s.connections_.erase c
      closed := insert c s.closed } := by
    rw [managerStop, hio]
  rw [hsame]
  refine ⟨⟨⟨?_, ?_, h.accepting, h.alive⟩, ?_⟩, rfl⟩
  · intro other
    rw [h.accepted, Finset.mem_erase, Finset.mem_insert]
    by_cases hother : other = c
    · simp [hother, h.mem]
    · simp [hother]
  · intro other hother
    obtain ⟨hne, hmem⟩ := Finset.mem_erase.mp hother
    rw [Finset.mem_insert, not_or]
    exact ⟨hne, h.apart other hmem⟩
  · intro other
    change s.pendingOf other = if other ∈ s.connections_.erase c then 1 else 0
    by_cases hother : other = c
    · rw [hother, h.none, if_neg (Finset.notMem_erase c _)]
    · simp only [h.others other hother, Finset.mem_erase, hother, ne_eq,
        not_false_eq_true, true_and]

/-- An accept is taken off. -/
theorem Managed.take_accept (h : s.Managed)
    (htake : s.io.take i = some (op, io)) (hop : op.kind = .accept c) :
    { s with io }.Managed ∧ s.accepts = 1 ∧ { s with io }.accepts = 0 := by
  obtain ⟨hprogress, halive⟩ := h.alive.take htake
  have hstands : IoService.Stands isAccept op := by
    refine ⟨?_, hprogress⟩
    rw [hop]
    rfl
  have hsum : s.accepts = { s with io }.accepts + 1 := by
    rw [accepts, IoService.standing_take _ htake, if_pos hstands]
    rfl
  have hle := h.accepting
  refine ⟨⟨⟨h.accepted, h.apart, by omega, halive⟩, ?_⟩, by omega, by omega⟩
  intro other
  have hnot : ¬ IoService.Stands (isOf other) op := by
    rintro ⟨hother, -⟩
    rw [isOf_eq_false op.kind (by simp [hop, HttpOperation.serves])] at hother
    cases hother
  rw [← h.pending other, pendingOf, pendingOf,
    IoService.standing_take _ htake, if_neg hnot]
  rfl

/-- A new connection is managed, and the next one is accepted. -/
theorem Managed.accept (h : s.Managed) (hnone : s.accepts = 0)
    (memory : Uninitialized) :
    ((s.managerStart s.new_connection_).asyncAccept memory).Managed ∧
      ((s.managerStart s.new_connection_).asyncAccept memory).accepts = 1 := by
  have hfresh : s.new_connection_ ∉ s.connections_ := fun hmem =>
    absurd ((h.accepted _).mpr (Or.inl hmem)) (Nat.lt_irrefl _)
  have hclosed : s.new_connection_ ∉ s.closed := fun hmem =>
    absurd ((h.accepted _).mpr (Or.inr hmem)) (Nat.lt_irrefl _)
  have haccepts :
      ((s.managerStart s.new_connection_).asyncAccept memory).accepts = 1 := by
    simp only [accepts, asyncAccept, managerStart, start, setConnection,
      IoService.standing_start]
    rw [show s.io.standing isAccept = 0 from hnone]
    rfl
  refine ⟨⟨⟨?_, ?_, haccepts.le, ?_⟩, ?_⟩, haccepts⟩
  · intro c
    change c < s.new_connection_ + 1 ↔
      c ∈ insert s.new_connection_ s.connections_ ∨ c ∈ s.closed
    rw [Finset.mem_insert, or_assoc, ← h.accepted c, Nat.lt_succ_iff_lt_or_eq,
      or_comm]
  · intro c hc
    rcases Finset.mem_insert.mp hc with rfl | hold
    · exact hclosed
    · exact h.apart c hold
  · exact (h.alive.start _).start _
  · intro c
    have hread : isOf c (.read s.new_connection_) =
        decide (s.new_connection_ = c) := by
      simp [isOf, HttpOperation.serves]
    have haccept : isOf c (.accept (s.new_connection_ + 1)) = false := rfl
    simp only [pendingOf, asyncAccept, managerStart, start, setConnection,
      IoService.standing_start, hread, haccept]
    change s.pendingOf c + _ + 0 =
      if c ∈ insert s.new_connection_ s.connections_ then 1 else 0
    rw [h.pending, Nat.add_zero]
    by_cases hc : c = s.new_connection_
    · rw [hc, if_neg hfresh, if_pos (by simp),
        if_pos (Finset.mem_insert_self _ _)]
    · simp [hc, Ne.symm hc]

/-- `handle_read` starts one operation or stops the connection, or a handler
throws in it. -/
theorem Lacks.managed_handleRead {h : RequestHandlers A} {result : ReadResult}
    (hlacks : s.Lacks c) (hresult : result ≠ .aborted) :
    (s.handleRead h c result).phase = .thrown ∨
      ((s.handleRead h c result).Managed ∧
        (s.handleRead h c result).phase = s.phase ∧
        (s.handleRead h c result).accepts = s.accepts) := by
  have hwrite := hlacks.managed_start (show (HttpOperation.write c).serves =
    some c from rfl)
  have hagain := hlacks.managed_start (show (HttpOperation.read c).serves =
    some c from rfl)
  unfold handleRead
  split
  · dsimp only
    split
    · split
      · exact Or.inr ⟨hwrite.1.update _ _, rfl, hwrite.2⟩
      · exact Or.inl rfl
    · exact Or.inr ⟨hwrite.1.update _ _, rfl, hwrite.2⟩
    · exact Or.inr ⟨hagain.1.update _ _, rfl, hagain.2⟩
  · obtain ⟨hm, haccepts⟩ := hlacks.managed_stop
    exact Or.inr ⟨hm, rfl, haccepts⟩
  · exact absurd rfl hresult

/-- The event is not an accept that fails. -/
def AcceptSucceeds (_ : HttpServer A) : HttpEvent A → Prop
  | .handleAccept _ error _ => error = false
  | _ => True

/-- Whether a step keeps the accept loop as it was. -/
def AcceptEffect (s s' : HttpServer A) (succeeds : Prop) : Prop :=
  (succeeds ∧ s'.accepts = s.accepts) ∨
    (¬ succeeds ∧ s'.accepts = 0)

/-- What a handler makes of the server. -/
theorem managed_handle {h : RequestHandlers A} {event : HttpEvent A}
    (hmanaged : s.Managed) (htake : s.io.take i = some (op, io))
    (hhandle : { s with io }.handle h op event = some s') :
    (s'.phase = .thrown ∧ AcceptSucceeds s event) ∨
      (s'.Managed ∧ s'.phase = s.phase ∧
        AcceptEffect s s' (AcceptSucceeds s event)) := by
  have hprogress := (hmanaged.alive.take htake).1
  cases event with
  | handleAccept j error memory =>
      simp only [handle] at hhandle
      cases hkind : op.kind with
      | accept c =>
          obtain ⟨hm, hone, hnone⟩ := hmanaged.take_accept htake hkind
          simp only [hkind, hprogress, decide_false, Bool.or_false,
            Option.some.injEq] at hhandle
          subst hhandle
          right
          cases error with
          | true => exact ⟨hm, rfl, Or.inr ⟨Bool.noConfusion, hnone⟩⟩
          | false =>
              obtain ⟨haccept, hagain⟩ := hm.accept hnone memory
              exact ⟨haccept, rfl, Or.inl ⟨rfl, hagain.trans hone.symm⟩⟩
      | read c => simp [hkind] at hhandle
      | write c => simp [hkind] at hhandle
  | handleRead j read =>
      simp only [handle] at hhandle
      cases hkind : op.kind with
      | read c =>
          obtain ⟨hlacks, hsame⟩ := hmanaged.lacks htake
            (show op.kind.serves = some c by rw [hkind]; rfl)
          simp only [hkind, if_neg hprogress] at hhandle
          split_ifs at hhandle with haborted
          obtain rfl := Option.some.inj hhandle
          rcases hlacks.managed_handleRead (h := h) haborted with
            hthrown | ⟨hm, hphase, haccepts⟩
          · exact Or.inl ⟨hthrown, trivial⟩
          · exact Or.inr ⟨hm, hphase,
              Or.inl ⟨trivial, haccepts.trans hsame⟩⟩
      | accept c => simp [hkind] at hhandle
      | write c => simp [hkind] at hhandle
  | handleWrite j =>
      simp only [handle] at hhandle
      cases hkind : op.kind with
      | write c =>
          obtain ⟨hlacks, hsame⟩ := hmanaged.lacks htake
            (show op.kind.serves = some c by rw [hkind]; rfl)
          simp only [hkind, hprogress, decide_false, Option.some.injEq] at hhandle
          subst hhandle
          obtain ⟨hm, haccepts⟩ := hlacks.managed_stop
          exact Or.inr ⟨hm, rfl, Or.inl ⟨trivial, haccepts.trans hsame⟩⟩
      | accept c => simp [hkind] at hhandle
      | read c => simp [hkind] at hhandle
  | complete j => cases hhandle
  | handleStop => cases hhandle
  | application a => cases hhandle

/-- Whatever is pending belongs to the acceptor or to a connection of the
manager, so that a stop cancels it. -/
theorem Managed.stopped_handleStop (h : s.Managed) : s.handleStop.Stopped := by
  refine ⟨rfl, ?_, ?_⟩
  · intro c hc
    exact Finset.mem_union.mpr ((h.accepted c).mp hc).symm
  · intro op' hop'
    obtain ⟨mid, hmid, rfl⟩ := List.mem_map.mp hop'
    obtain ⟨op, hop, rfl⟩ := List.mem_map.mp hmid
    apply Operation.progress_cancel
    cases hserves : op.kind.serves with
    | none =>
        have haccept : isAccept op.kind = true := by
          cases hkind : op.kind with
          | accept c => rfl
          | read c => simp [hkind, HttpOperation.serves] at hserves
          | write c => simp [hkind, HttpOperation.serves] at hserves
        exact Or.inr (Operation.progress_cancel (Or.inl haccept))
    | some c =>
        have hstands : IoService.Stands (isOf c) op :=
          ⟨decide_eq_true hserves, h.alive op hop⟩
        have hpending := IoService.standing_pos hop hstands
        have hmem : c ∈ s.connections_ := by
          by_contra hnot
          have hnone := h.pending c
          rw [if_neg hnot, pendingOf] at hnone
          omega
        refine Or.inl ?_
        rw [Operation.kind_cancel, hserves]
        exact decide_eq_true hmem

theorem running_of_step {h : RequestHandlers A} {event : HttpEvent A}
    (hstep : s.step h event = some s') : s.phase = .running := by
  unfold step at hstep
  split_ifs at hstep with hrunning
  exact hrunning

/-- What one event makes of the server. -/
theorem orderly_step {h : RequestHandlers A} {event : HttpEvent A}
    (hstep : s.step h event = some s') (ho : s.Orderly) :
    s'.Orderly ∧
      ((s'.phase ≠ .running ∧ AcceptSucceeds s event) ∨
        (s'.phase = .running ∧
          AcceptEffect s s' (AcceptSucceeds s event))) := by
  unfold step at hstep
  split_ifs at hstep with hrunning
  have hmanaged := ho.1 hrunning
  rcases perform_cases hstep with ⟨i, io, rfl, hio, rfl⟩ | ⟨rfl, rfl⟩ |
    ⟨a, rfl, rfl⟩ | ⟨i, op, io, hplace, htake, hhandle⟩
  · have hstanding : ∀ p, io.standing p = s.io.standing p := fun p =>
      IoService.standing_complete p hio
    refine ⟨⟨fun _ => ⟨⟨hmanaged.accepted, hmanaged.apart, ?_, ?_⟩, ?_⟩,
      ?_⟩, Or.inr ⟨hrunning, Or.inl ⟨trivial, hstanding isAccept⟩⟩⟩
    · exact (hstanding isAccept).trans_le hmanaged.accepting
    · exact hmanaged.alive.complete hio
    · exact fun c => (hstanding (isOf c)).trans (hmanaged.pending c)
    · intro hstopped
      cases hrunning.symm.trans hstopped
  · exact ⟨⟨Phase.noConfusion, fun _ => hmanaged.stopped_handleStop⟩,
      Or.inl ⟨Phase.noConfusion, trivial⟩⟩
  · refine ⟨⟨fun _ => hmanaged.update s.connection a, fun hstopped => ?_⟩,
      Or.inr ⟨hrunning, Or.inl ⟨trivial, rfl⟩⟩⟩
    cases hrunning.symm.trans hstopped
  · rcases managed_handle hmanaged htake hhandle with
      ⟨hthrown, hsucceeds⟩ | ⟨hm, hphase, heffect⟩
    · have hended : s'.phase ≠ .running := by simp [hthrown]
      refine ⟨⟨fun hrunning' => absurd hrunning' hended, fun hstopped => ?_⟩,
        Or.inl ⟨hended, hsucceeds⟩⟩
      cases hthrown.symm.trans hstopped
    · refine ⟨⟨fun _ => hm, fun hstopped => ?_⟩,
        Or.inr ⟨hphase.trans hrunning, heffect⟩⟩
      cases (hphase.trans hrunning).symm.trans hstopped

theorem orderly_init (h : RequestHandlers A) (application : A)
    (memory : Uninitialized) :
    (httpServerSystem h application memory).init.Orderly := by
  refine ⟨fun _ => ⟨⟨?_, ?_, le_rfl, ?_⟩, ?_⟩, Phase.noConfusion⟩
  · intro c
    simp [httpServerSystem]
  · intro c hc
    exact absurd hc (Finset.notMem_empty c)
  · intro op hop
    rw [List.mem_singleton.mp hop]
    exact Progress.noConfusion
  · intro c
    rfl

/-- While the server runs, an accept is pending. -/
def Accepting (s : HttpServer A) : Prop :=
  s.phase = .running → s.accepts = 1

section Runs

variable (h : RequestHandlers A) (application : A) (memory : Uninitialized)
  (events : List (HttpEvent A))

/-- In every run the server is orderly: as long as it runs, an accepted
connection is managed, not closed and has one operation pending, or is closed,
not managed and has none; and a stop closes all of them and cancels everything
that is outstanding. -/
theorem always_orderly :
    (httpServerSystem h application memory).Always Orderly events := by
  apply StepSystem.always_of_invariant _ (orderly_init h application memory)
  · intro s s' event ho _ hstep
    exact (orderly_step hstep ho).1
  · exact fun s ho => ho

/-- An accept is always pending in exactly the runs in which none fails. -/
theorem always_accepting_iff :
    (httpServerSystem h application memory).Always Accepting events ↔
      (httpServerSystem h application memory).Each AcceptSucceeds events := by
  apply StepSystem.always_iff_each _ (I := fun s => s.Orderly ∧ s.Accepting)
  · exact ⟨orderly_init h application memory, fun _ => rfl⟩
  · rintro s s' event ⟨ho, haccepting⟩ hguard hstep
    obtain ⟨ho', hstopped | ⟨-, heffect⟩⟩ := orderly_step hstep ho
    · exact ⟨ho', fun hrunning => absurd hrunning hstopped.1⟩
    · refine ⟨ho', fun _ => ?_⟩
      rcases heffect with ⟨-, hsame⟩ | ⟨hfails, -⟩
      · exact hsame.trans (haccepting (running_of_step hstep))
      · exact absurd hguard hfails
  · exact fun s hs => hs.2
  · rintro s s' event ⟨ho, -⟩ hstep hguard haccepting
    obtain ⟨-, hstopped | ⟨hrunning, heffect⟩⟩ := orderly_step hstep ho
    · exact hguard hstopped.2
    · rcases heffect with ⟨hsucceeds, -⟩ | ⟨-, hnone⟩
      · exact hguard hsucceeds
      · have hone := haccepting hrunning
        omega

end Runs

end HttpServer

end BohunoPyzord
