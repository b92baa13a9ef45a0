import Mathlib.Data.List.Basic
import Mathlib.Tactic.Common

/-!
# Files and crashes

A program changes files by truncating them and by appending to them. `runOps` performs a list of
such operations, and `stopAt` stops inside it: some operations are performed, and of the next one,
if it is a write, a prefix of its bytes may have reached the file.

The main fact is about rewriting a file, `stopAt_rewrite`: wherever one stops after the first
operation, the file holds a prefix of what it is to hold, and no other file is touched.
-/

namespace SprdHal.Lib

/-- The contents of the files that exist. -/
abbrev Files (ν : Type) := ν → Option (List UInt8)

inductive FileOp (ν : Type)
  | trunc (f : ν)
  | write (f : ν) (bytes : List UInt8)
  deriving DecidableEq

section Ops

variable {ν : Type} [DecidableEq ν]

/-- `open` with `O_CREAT | O_TRUNC`, and `write` at the end of the file. -/
def applyOp (fs : Files ν) : FileOp ν → Files ν
  | .trunc f => Function.update fs f (some [])
  | .write f bytes => Function.update fs f ((fs f).map (· ++ bytes))

def runOps (fs : Files ν) (ops : List (FileOp ν)) : Files ν := ops.foldl applyOp fs

/-- Where a program stops: after `ops` operations, and inside the next one after `bytes` bytes. -/
structure StopPoint where
  ops : Nat
  bytes : Nat
  deriving DecidableEq

def stopAt (fs : Files ν) (ops : List (FileOp ν)) (stop : StopPoint) : Files ν :=
  match ops[stop.ops]? with
  | some (.write f bytes) =>
    applyOp (runOps fs (ops.take stop.ops)) (.write f (bytes.take stop.bytes))
  | _ => runOps fs (ops.take stop.ops)

/-- The operations that replace the contents of a file, in two writes. -/
def rewriteOps (f : ν) (a b : List UInt8) : List (FileOp ν) := [.trunc f, .write f a, .write f b]

theorem runOps_append (fs : Files ν) (a b : List (FileOp ν)) :
    runOps fs (a ++ b) = runOps (runOps fs a) b := List.foldl_append

theorem runOps_rewrite (fs : Files ν) (f : ν) (a b : List UInt8) :
    runOps fs (rewriteOps f a b) = Function.update fs f (some (a ++ b)) := by
  simp [runOps, rewriteOps, applyOp]

theorem stopAt_of_le (fs : Files ν) {ops : List (FileOp ν)} {stop : StopPoint}
    (h : ops.length ≤ stop.ops) : stopAt fs ops stop = runOps fs ops := by
  rw [stopAt, List.getElem?_eq_none h, List.take_of_length_le h]

/-- Stopping in the first or in the second of two programs. -/
theorem stopAt_append (fs : Files ν) (a b : List (FileOp ν)) (stop : StopPoint) :
    stopAt fs (a ++ b) stop =
      if stop.ops < a.length then stopAt fs a stop
      else stopAt (runOps fs a) b ⟨stop.ops - a.length, stop.bytes⟩ := by
  by_cases h : stop.ops < a.length
  · rw [if_pos h, stopAt, stopAt, List.getElem?_append_left h,
      List.take_append_of_le_length (Nat.le_of_lt h)]
  · have hle : a.length ≤ stop.ops := by omega
    have htake : (a ++ b).take stop.ops = a ++ b.take (stop.ops - a.length) := by
      rw [List.take_append, List.take_of_length_le hle]
    rw [if_neg h, stopAt, stopAt, List.getElem?_append_right hle, htake]
    simp only [runOps_append]

/-- **Stopping while a file is rewritten.** -/
theorem stopAt_rewrite (fs : Files ν) (f : ν) (a b : List UInt8) (stop : StopPoint) :
    (stop.ops = 0 ∧ stopAt fs (rewriteOps f a b) stop = fs) ∨
      ∃ pre, pre <+: a ++ b ∧
        stopAt fs (rewriteOps f a b) stop = Function.update fs f (some pre) := by
  obtain ⟨n, k⟩ := stop
  match n with
  | 0 => exact Or.inl ⟨rfl, rfl⟩
  | 1 =>
    refine Or.inr ⟨a.take k, (List.take_prefix k a).trans (List.prefix_append a b), ?_⟩
    simp [stopAt, rewriteOps, runOps, applyOp]
  | 2 =>
    refine Or.inr ⟨a ++ b.take k, (List.prefix_append_right_inj a).mpr (List.take_prefix k b), ?_⟩
    simp [stopAt, rewriteOps, runOps, applyOp]
  | n + 3 =>
    refine Or.inr ⟨a ++ b, List.prefix_refl _, ?_⟩
    rw [stopAt_of_le _ (by simp [rewriteOps]), runOps_rewrite]

end Ops

end SprdHal.Lib
