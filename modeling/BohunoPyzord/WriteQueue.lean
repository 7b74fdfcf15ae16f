/-
A queue whose items are written one at a time over a connection that comes and
goes: the front is written while connected, popped when its write succeeds and
kept when it fails.  Nothing but the order of connects decides whether this is
an ordered outbox.
-/
import BohunoPyzord.Outbox

universe u

/-- The queue, whether the connection is taken to be up, what the outstanding
writes are writing, everything accepted, and for each successful write what it
wrote and what was popped for it. -/
structure WriteQueue (U : Type u) where
  items : List U
  connected : Bool
  writing : List U
  accepted : List U
  popped : List (U × Option U)
deriving DecidableEq, Repr

/-- `written i` and `failed i` are completions of the `i`-th outstanding
write. -/
inductive WriteEvent (U : Type u) where
  | accept (item : U)
  | connect
  | written (i : Nat)
  | failed (i : Nat)
deriving DecidableEq, Repr

namespace WriteQueue

variable {U : Type u}

def step (q : WriteQueue U) : WriteEvent U → Option (WriteQueue U)
  | .accept item => some { q with
      items := q.items ++ [item]
      writing := q.writing ++
        if q.connected = true ∧ q.items = [] then [item] else []
      accepted := q.accepted ++ [item] }
  | .connect => some { q with
      connected := true
      writing := q.writing ++ q.items.take 1 }
  | .written i => q.writing[i]?.map fun item => { q with
      items := q.items.tail
      writing := q.writing.eraseIdx i ++
        if q.connected then q.items.tail.take 1 else []
      popped := q.popped ++ [(item, q.items.head?)] }
  | .failed i => q.writing[i]?.map fun _ => { q with
      connected := false
      writing := q.writing.eraseIdx i }

def system (U : Type u) : StepSystem (WriteQueue U) (WriteEvent U) where
  init := { items := [], connected := false, writing := [], accepted := [],
            popped := [] }
  step := step

/-- What was written successfully, in order. -/
def delivered (q : WriteQueue U) : List U := q.popped.map Prod.fst

/-- At most one write is outstanding, each successful write pops the item it
wrote, and the successful writes are a prefix of the accepted items. -/
def InOrder (q : WriteQueue U) : Prop :=
  q.writing.length ≤ 1 ∧ (∀ p ∈ q.popped, p.2 = some p.1) ∧
    q.delivered <+: q.accepted

/-- A connection comes up only while it is taken to be down, or over an empty
queue. -/
def ConnectsUnqueued (q : WriteQueue U) : WriteEvent U → Prop
  | .connect => ¬ (q.connected = true ∧ q.items ≠ [])
  | _ => True

/-- While connected the front of the queue is being written, otherwise
nothing is; what was written and what is queued make up what was accepted. -/
structure Inv (q : WriteQueue U) : Prop where
  writing : q.writing = if q.connected then q.items.take 1 else []
  accepted : q.delivered ++ q.items = q.accepted
  popped : ∀ p ∈ q.popped, p.2 = some p.1

theorem Inv.inOrder {q : WriteQueue U} (h : q.Inv) : q.InOrder := by
  refine ⟨?_, h.popped, ⟨q.items, h.accepted⟩⟩
  rw [h.writing]
  split
  · exact List.length_take_le 1 _
  · exact Nat.zero_le 1

theorem inv_init : (system U).init.Inv where
  writing := rfl
  accepted := rfl
  popped := by simp [system]

/-- A write that completes is the write of the front of the queue, and no
other one is outstanding. -/
theorem Inv.front {q : WriteQueue U} (h : q.Inv) {i : Nat} {item : U}
    (hwrite : q.writing[i]? = some item) :
    q.connected = true ∧ q.writing.eraseIdx i = [] ∧
      ∃ rest, q.items = item :: rest := by
  rw [h.writing] at hwrite ⊢
  cases hc : q.connected with
  | false => simp [hc] at hwrite
  | true =>
      cases hq : q.items with
      | nil => simp [hc, hq] at hwrite
      | cons front rest =>
          cases i with
          | zero =>
              have hfront : front = item := by simpa [hc, hq] using hwrite
              exact ⟨rfl, rfl, rest, by rw [hfront]⟩
          | succ i => simp [hc, hq] at hwrite

theorem inv_accept {q : WriteQueue U} (h : q.Inv) {item : U}
    {q' : WriteQueue U} (hstep : q.step (.accept item) = some q') :
    q'.Inv := by
  obtain rfl := Option.some.inj hstep
  refine ⟨?_, ?_, h.popped⟩
  · have hwriting := h.writing
    cases hc : q.connected <;> cases hq : q.items <;> simp_all
  · change q.delivered ++ (q.items ++ [item]) = q.accepted ++ [item]
    rw [← List.append_assoc, h.accepted]

theorem inv_connect {q : WriteQueue U} (h : q.Inv)
    (hguard : q.ConnectsUnqueued .connect) {q' : WriteQueue U}
    (hstep : q.step .connect = some q') : q'.Inv := by
  obtain rfl := Option.some.inj hstep
  refine ⟨?_, h.accepted, h.popped⟩
  have hwriting : q.writing = [] := by
    have hnot : ¬ (q.connected = true ∧ q.items ≠ []) := hguard
    rw [h.writing]
    cases hc : q.connected <;> cases hq : q.items <;> simp_all
  simp [hwriting]

theorem inv_written {q : WriteQueue U} (h : q.Inv) {i : Nat}
    {q' : WriteQueue U} (hstep : q.step (.written i) = some q') :
    q'.Inv := by
  obtain ⟨item, hwrite, rfl⟩ := Option.map_eq_some_iff.mp hstep
  obtain ⟨hconnected, hnone, rest, hitems⟩ := h.front hwrite
  have haccepted := h.accepted
  rw [delivered, hitems] at haccepted
  refine ⟨by simp [hnone, hconnected], ?_, ?_⟩
  · simpa [delivered, hitems] using haccepted
  · intro p hp
    simp only [List.mem_append, List.mem_singleton] at hp
    rcases hp with hold | rfl
    · exact h.popped p hold
    · simp [hitems]

theorem inv_failed {q : WriteQueue U} (h : q.Inv) {i : Nat}
    {q' : WriteQueue U} (hstep : q.step (.failed i) = some q') :
    q'.Inv := by
  obtain ⟨item, hwrite, rfl⟩ := Option.map_eq_some_iff.mp hstep
  obtain ⟨-, hnone, -⟩ := h.front hwrite
  exact ⟨by simp [hnone], h.accepted, h.popped⟩

/-- One step: outside a stale connect the invariant is kept. -/
theorem inv_step : (system U).Preserves Inv ConnectsUnqueued := by
  intro q q' event h hguard hstep
  cases event with
  | accept item => exact inv_accept h hstep
  | connect => exact inv_connect h hguard hstep
  | written i => exact inv_written h hstep
  | failed i => exact inv_failed h hstep

/-- A stale connect starts a second write of the front. -/
theorem not_inOrder_of_stale_connect {q q' : WriteQueue U} (h : q.Inv)
    (hstep : q.step .connect = some q')
    (hstale : ¬ q.ConnectsUnqueued .connect) : ¬ q'.InOrder := by
  obtain rfl := Option.some.inj hstep
  have hboth : q.connected = true ∧ q.items ≠ [] := not_not.mp hstale
  obtain ⟨front, rest, hitems⟩ := List.exists_cons_of_ne_nil hboth.2
  intro hinOrder
  have hlength := hinOrder.1
  simp [h.writing, hboth.1, hitems] at hlength

/-- The outbox a write queue implements. -/
def toOutbox (q : WriteQueue U) : Outbox U := ⟨q.accepted, q.delivered⟩

/-- An event as the outbox sees it. -/
def outboxActions : WriteEvent U → List (OutboxAction U)
  | .accept item => [.accept item]
  | .written _ => [.deliver]
  | .connect | .failed _ => []

/-- Under the invariant every event does to the outbox what it stands for
there. -/
theorem simulates_outbox : (system U).Simulates (Outbox.system U) toOutbox
    outboxActions Inv ConnectsUnqueued fun _ _ => True := by
  intro q q' event h _ hstep
  refine ⟨?_, (Outbox.system U).eachFrom_true _ _⟩
  cases event with
  | accept item =>
      obtain rfl := Option.some.inj hstep
      rfl
  | connect =>
      obtain rfl := Option.some.inj hstep
      rfl
  | written i =>
      obtain ⟨item, hwrite, rfl⟩ := Option.map_eq_some_iff.mp hstep
      obtain ⟨-, -, rest, hitems⟩ := h.front hwrite
      rw [outboxActions, StepSystem.runFrom_singleton]
      simp [toOutbox, delivered, Outbox.system, Outbox.step, ← h.accepted,
        hitems]
  | failed i =>
      obtain ⟨item, hwrite, rfl⟩ := Option.map_eq_some_iff.mp hstep
      rfl

/-- The queue refines the outbox: a run without a stale connect is an outbox
run with the same acceptances and deliveries, which is an ordered one. -/
theorem refines_outbox {events : List (WriteEvent U)} {q : WriteQueue U}
    (heach : (system U).Each ConnectsUnqueued events)
    (hrun : (system U).run events = some q) :
    (Outbox.system U).run (events.flatMap outboxActions) =
        some q.toOutbox ∧
      q.delivered <+: q.accepted := by
  have houtbox :=
    (simulates_outbox.run inv_step inv_init rfl heach hrun).1
  exact ⟨houtbox, Outbox.run_ordered houtbox⟩

end WriteQueue
