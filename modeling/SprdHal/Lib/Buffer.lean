import Mathlib.Order.Bounds.Basic
import Mathlib.Tactic.Common

/-!
# Buffers that are filled by copies

A copy between two buffers succeeds if both ranges are inside. Copies that go on where the one before
ended fill the destination from its start: what is filled so far is `Filled`, and a copy extends it
(`Filled.copy`).
-/

namespace SprdHal.Lib

variable {α : Type}

/-- A buffer of so many elements. -/
structure Buffer (α : Type) where
  size : Nat
  data : Nat → α

namespace Buffer

/-- `memcpy` of `n` elements. There is no result if it leaves one of the buffers. -/
def copy (dst : Buffer α) (dstOff : Nat) (src : Buffer α) (srcOff n : Nat) : Option (Buffer α) :=
  if srcOff + n ≤ src.size ∧ dstOff + n ≤ dst.size then
    some ⟨dst.size, fun i =>
      if dstOff ≤ i ∧ i < dstOff + n then src.data (srcOff + (i - dstOff)) else dst.data i⟩
  else none

/-- The first `n` elements of a buffer are those of a function. -/
def Filled (b : Buffer α) (n : Nat) (f : Nat → α) : Prop := ∀ i < n, b.data i = f i

theorem filled_zero (b : Buffer α) (f : Nat → α) : b.Filled 0 f := fun i h => absurd h (Nat.not_lt_zero i)

/-- **A copy** goes on with the filling. -/
theorem Filled.copy {dst : Buffer α} {k : Nat} {f : Nat → α} (h : dst.Filled k f)
    (src : Buffer α) (srcOff n : Nat) (hsrc : srcOff + n ≤ src.size) (hdst : k + n ≤ dst.size)
    (hdata : ∀ i < n, src.data (srcOff + i) = f (k + i)) :
    ∃ b, dst.copy k src srcOff n = some b ∧ b.size = dst.size ∧ b.Filled (k + n) f := by
  refine ⟨_, if_pos ⟨hsrc, hdst⟩, rfl, fun i hi => ?_⟩
  by_cases hk : k ≤ i
  · have hin := hdata (i - k) (by omega)
    rw [Nat.add_sub_cancel' hk] at hin
    exact (if_pos ⟨hk, hi⟩).trans hin
  · exact (if_neg fun hin => hk hin.1).trans (h i (by omega))

/-- What a copy that succeeds tells. -/
theorem size_of_copy {dst src b : Buffer α} {dstOff srcOff n : Nat}
    (h : dst.copy dstOff src srcOff n = some b) :
    srcOff + n ≤ src.size ∧ dstOff + n ≤ dst.size ∧ b.size = dst.size := by
  rw [Buffer.copy] at h
  split at h
  case isTrue hin =>
    cases h
    exact ⟨hin.1, hin.2, rfl⟩
  case isFalse => cases h

end Buffer

/-! ## The largest of some numbers -/

/-- The loop that keeps the largest number seen, from a first one on. -/
def runMax (stat : Nat → Nat) (n first : Nat) : Nat :=
  (List.range n).foldl (fun m x => if m < stat x then stat x else m) first

theorem isGreatest_runMax (stat : Nat → Nat) (n first : Nat) :
    IsGreatest {m | m = first ∨ ∃ x < n, m = stat x} (runMax stat n first) := by
  induction n with
  | zero =>
    refine ⟨.inl rfl, fun m hm => ?_⟩
    rcases hm with rfl | ⟨x, hx, -⟩
    · exact le_rfl
    · exact absurd hx (Nat.not_lt_zero x)
  | succ n ih =>
    have hstep : runMax stat (n + 1) first =
        if runMax stat n first < stat n then stat n else runMax stat n first := by
      rw [runMax, List.range_succ, List.foldl_append]
      rfl
    have hmem : runMax stat n first = first ∨ ∃ x < n, runMax stat n first = stat x := ih.1
    have hle (x : Nat) (hx : x < n) : stat x ≤ runMax stat n first := ih.2 (.inr ⟨x, hx, rfl⟩)
    have hfirst : first ≤ runMax stat n first := ih.2 (.inl rfl)
    rw [hstep]
    constructor
    · split
      · exact .inr ⟨n, Nat.lt_succ_self n, rfl⟩
      · exact hmem.imp_right fun ⟨x, hx, heq⟩ => ⟨x, Nat.lt_succ_of_lt hx, heq⟩
    · rintro m (rfl | ⟨x, hx, rfl⟩)
      · split
        all_goals omega
      · rcases Nat.lt_succ_iff_lt_or_eq.mp hx with hx | rfl
        · have hxle := hle x hx
          split
          all_goals omega
        · split
          all_goals omega

end SprdHal.Lib
