import Mathlib.Data.List.Basic
import Mathlib.Tactic.Common

/-!
# Bounded queues

The sequential specification of a queue that holds at most `cap` items: `fifoRun` runs a sequence of
operations and fails at the first one that a queue does not allow. What a legal sequence takes out
is what it puts in, in order (`takes_append_of_fifoRun`).
-/

namespace SprdHal.Lib

variable {α : Type}

/-- An operation with its outcome. -/
inductive QueueOp (α : Type)
  | put (x : α)
  /-- the queue is full -/
  | full
  | take (x : α)
  /-- nothing is taken; the queue need not be empty -/
  | none
  deriving DecidableEq, Repr

def fifoStep [DecidableEq α] (cap : Nat) (q : List α) : QueueOp α → Option (List α)
  | .put x => if q.length < cap then some (q ++ [x]) else Option.none
  | .full => if q.length = cap then some q else Option.none
  | .take x => if q.head? = some x then some q.tail else Option.none
  | .none => some q

def fifoRun [DecidableEq α] (cap : Nat) (q : List α) (ops : List (QueueOp α)) : Option (List α) :=
  ops.foldlM (fifoStep cap) q

def QueueOp.puts : List (QueueOp α) → List α
  | [] => []
  | .put x :: ops => x :: puts ops
  | _ :: ops => puts ops

def QueueOp.takes : List (QueueOp α) → List α
  | [] => []
  | .take x :: ops => x :: takes ops
  | _ :: ops => takes ops

section Run

variable [DecidableEq α] {cap : Nat}

theorem fifoRun_append {q q' : List α} {ops : List (QueueOp α)} (h : fifoRun cap q ops = some q')
    (ops' : List (QueueOp α)) : fifoRun cap q (ops ++ ops') = fifoRun cap q' ops' := by
  rw [fifoRun, List.foldlM_append]
  show (fifoRun cap q ops).bind _ = _
  rw [h]
  rfl

/-- **First in, first out.** -/
theorem takes_append_of_fifoRun {q q' : List α} {ops : List (QueueOp α)}
    (h : fifoRun cap q ops = some q') : QueueOp.takes ops ++ q' = q ++ QueueOp.puts ops := by
  induction ops generalizing q with
  | nil =>
    cases h
    exact (List.append_nil _).symm
  | cons op ops ih =>
    obtain ⟨q₁, hstep, hrun⟩ := Option.bind_eq_some_iff.mp h
    have hrest := ih hrun
    cases op with
    | put x =>
      simp only [fifoStep, Option.ite_none_right_eq_some, Option.some.injEq] at hstep
      obtain ⟨-, rfl⟩ := hstep
      rw [List.append_assoc] at hrest
      exact hrest
    | full =>
      simp only [fifoStep, Option.ite_none_right_eq_some, Option.some.injEq] at hstep
      obtain ⟨-, rfl⟩ := hstep
      exact hrest
    | take x =>
      simp only [fifoStep, Option.ite_none_right_eq_some, Option.some.injEq] at hstep
      obtain ⟨hhead, rfl⟩ := hstep
      cases q with
      | nil => cases hhead
      | cons y q =>
        obtain rfl : y = x := Option.some.inj hhead
        exact congrArg (y :: ·) hrest
    | none =>
      cases hstep
      exact hrest

end Run

end SprdHal.Lib
