/-
Logs of the calls on a transactional store, with their outcomes.  What a log
leaves behind does not depend on the program that made the calls: the batches
whose commit succeeded, and the transactions that are still running.
-/
import Mathlib.Tactic.Common

universe u

/-- A call, and whether it succeeded. -/
inductive StoreCall (P : Type u) where
  | txnBegin (ok : Bool)
  | put (p : P) (ok : Bool)
  | commit (ok : Bool)
deriving DecidableEq, Repr

/-- The batches committed so far, and those of the running transactions, the
newest first. -/
structure Transactions (P : Type u) where
  batches : List (List P)
  running : List (List P)
deriving DecidableEq, Repr

namespace Transactions

variable {P : Type u}

def none : Transactions P := ⟨[], []⟩

/-- A put goes into the newest transaction, and a commit is the end of it
even if it fails. -/
def call (t : Transactions P) : StoreCall P → Transactions P
  | .txnBegin true => { t with running := [] :: t.running }
  | .txnBegin false => t
  | .put p true =>
      { t with running := t.running.modifyHead fun batch => batch ++ [p] }
  | .put _ false => t
  | .commit true =>
      { batches := t.batches ++ t.running.head?.toList
        running := t.running.tail }
  | .commit false => { t with running := t.running.tail }

def replay (t : Transactions P) (log : List (StoreCall P)) : Transactions P :=
  log.foldl call t

@[simp] theorem replay_nil (t : Transactions P) : t.replay [] = t := rfl

@[simp] theorem replay_cons (t : Transactions P) (c : StoreCall P)
    (log : List (StoreCall P)) :
    t.replay (c :: log) = (t.call c).replay log := rfl

@[simp] theorem replay_append (t : Transactions P)
    (first second : List (StoreCall P)) :
    t.replay (first ++ second) = (t.replay first).replay second :=
  List.foldl_append

end Transactions
