/-
An ordered outbox: items are accepted at one end and delivered at the other,
each at most once and in the order of acceptance.
-/
import BohunoPyzord.StepSystem

universe u

/-- Everything accepted so far and everything delivered so far. -/
structure Outbox (U : Type u) where
  accepted : List U
  delivered : List U
deriving DecidableEq, Repr

inductive OutboxAction (U : Type u) where
  | accept (item : U)
  | deliver
deriving DecidableEq, Repr

namespace Outbox

variable {U : Type u}

/-- Delivery takes the first accepted item that has not been delivered. -/
def step (o : Outbox U) : OutboxAction U → Option (Outbox U)
  | .accept item => some { o with accepted := o.accepted ++ [item] }
  | .deliver =>
      o.accepted[o.delivered.length]?.map fun item =>
        { o with delivered := o.delivered ++ [item] }

def system (U : Type u) : StepSystem (Outbox U) (OutboxAction U) where
  init := ⟨[], []⟩
  step := step

theorem step_ordered {o o' : Outbox U} {a : OutboxAction U}
    (hpre : o.delivered <+: o.accepted) (hstep : o.step a = some o') :
    o'.delivered <+: o'.accepted := by
  cases a with
  | accept item =>
      obtain rfl := Option.some.inj hstep
      exact hpre.trans (List.prefix_append _ _)
  | deliver =>
      obtain ⟨item, hitem, rfl⟩ := Option.map_eq_some_iff.mp hstep
      obtain ⟨rest, hrest⟩ := hpre
      cases rest with
      | nil => simp [← hrest] at hitem
      | cons head rest =>
          have hhead : head = item := by simpa [← hrest] using hitem
          exact ⟨rest, by simp [← hrest, hhead]⟩

/-- Over any history the deliveries are a prefix of the acceptances: nothing
is skipped, repeated or reordered. -/
theorem run_ordered {acts : List (OutboxAction U)} {o : Outbox U}
    (hrun : (system U).run acts = some o) : o.delivered <+: o.accepted :=
  (system U).run_invariant (I := fun o => o.delivered <+: o.accepted)
    List.nil_prefix (fun hpre _ hstep => step_ordered hpre hstep) hrun

end Outbox
