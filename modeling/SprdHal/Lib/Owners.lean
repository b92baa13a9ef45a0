import Mathlib.Logic.Function.Basic
import Mathlib.Data.List.Basic
import Mathlib.Tactic.Common

/-!
# Blocks and the variables that own them

Variables hold blocks of memory. A block belongs to the variable for which it was allocated. `Owns`
is what keeps a block from being freed twice: what a variable holds is its own and has not been
freed. `Keeps` is what keeps a block from being lost: those blocks of a variable that have not been
freed are held by it.
-/

namespace SprdHal.Lib

/-- The variables, and the blocks: for which variable each was allocated, and which have been
freed. -/
structure Owners (ι : Type) where
  ptr : ι → Option Nat
  allocs : List ι
  freed : List Nat

namespace Owners

variable {ι : Type}

/-- The block of the variable is freed; a null pointer is not. -/
def free (i : ι) (o : Owners ι) : Owners ι :=
  match o.ptr i with
  | some k => { o with freed := k :: o.freed }
  | none => o

/-- No block is freed twice. -/
structure Owns (o : Owners ι) : Prop where
  holds : ∀ i k, o.ptr i = some k → o.allocs[k]? = some i ∧ k ∉ o.freed
  once : o.freed.Nodup
  old : ∀ k ∈ o.freed, k < o.allocs.length

/-- The blocks of a variable that have not been freed are held by it. -/
def Keeps (o : Owners ι) (i : ι) : Prop :=
  ∀ k, o.allocs[k]? = some i → k ∉ o.freed → o.ptr i = some k

/-- All blocks of a variable have been freed. -/
def Released (o : Owners ι) (i : ι) : Prop := ∀ k, o.allocs[k]? = some i → k ∈ o.freed

variable {o : Owners ι} {i j : ι}

@[simp] theorem free_ptr : (o.free i).ptr = o.ptr := by
  unfold free
  split <;> rfl

@[simp] theorem free_allocs : (o.free i).allocs = o.allocs := by
  unfold free
  split <;> rfl

theorem mem_free_freed (k : Nat) : k ∈ (o.free i).freed ↔ o.ptr i = some k ∨ k ∈ o.freed := by
  unfold free
  split
  · rename_i k' hk
    rw [List.mem_cons, hk, Option.some.injEq, eq_comm]
  · rename_i hnone
    simp [hnone]

/-- A variable that keeps its blocks and holds none has none. -/
theorem Keeps.released (h : o.Keeps i) (hnull : o.ptr i = none) : o.Released i := by
  intro k hk
  by_contra hlive
  cases hnull.symm.trans (h k hk hlive)

/-- A variable that holds a block has one. -/
theorem Owns.not_released (h : o.Owns) {k : Nat} (hk : o.ptr i = some k) : ¬o.Released i :=
  fun hrel => (h.holds i k hk).2 (hrel k (h.holds i k hk).1)

variable [DecidableEq ι]

/-- A new block for the variable. -/
def alloc (i : ι) (o : Owners ι) : Owners ι :=
  { o with ptr := Function.update o.ptr i (some o.allocs.length), allocs := o.allocs ++ [i] }

/-- The variable is set to null. -/
def clear (i : ι) (o : Owners ι) : Owners ι := { o with ptr := Function.update o.ptr i none }

def freeAndClear (i : ι) (o : Owners ι) : Owners ι := (o.free i).clear i

/-! ## Where the operations leave a variable alone -/

@[simp] theorem alloc_ptr_self : (o.alloc i).ptr i = some o.allocs.length :=
  Function.update_self ..

theorem alloc_ptr (h : j ≠ i) : (o.alloc i).ptr j = o.ptr j := Function.update_of_ne h ..

@[simp] theorem clear_ptr_self : (o.clear i).ptr i = none := Function.update_self ..

theorem clear_ptr (h : j ≠ i) : (o.clear i).ptr j = o.ptr j := Function.update_of_ne h ..

@[simp] theorem clear_allocs : (o.clear i).allocs = o.allocs := rfl

@[simp] theorem clear_freed : (o.clear i).freed = o.freed := rfl

/-- What a variable that has been cleared holds. -/
theorem clear_ptr_some {k : Nat} (h : (o.clear i).ptr j = some k) : j ≠ i ∧ o.ptr j = some k := by
  by_cases hj : j = i
  · rw [hj, clear_ptr_self] at h
    cases h
  · exact ⟨hj, clear_ptr hj ▸ h⟩

@[simp] theorem freeAndClear_ptr_self : (o.freeAndClear i).ptr i = none := clear_ptr_self

theorem freeAndClear_ptr (h : j ≠ i) : (o.freeAndClear i).ptr j = o.ptr j := by
  rw [freeAndClear, clear_ptr h, free_ptr]

@[simp] theorem freeAndClear_allocs : (o.freeAndClear i).allocs = o.allocs := by
  rw [freeAndClear, clear_allocs, free_allocs]

theorem mem_freeAndClear_freed (k : Nat) :
    k ∈ (o.freeAndClear i).freed ↔ o.ptr i = some k ∨ k ∈ o.freed := by
  rw [freeAndClear, clear_freed, mem_free_freed]

/-! ## Owning -/

/-- A new block is not one of the old ones. -/
theorem getElem?_alloc {k : Nat} :
    (o.alloc i).allocs[k]? = some j ↔
      o.allocs[k]? = some j ∨ k = o.allocs.length ∧ i = j := by
  show (o.allocs ++ [i])[k]? = some j ↔ _
  rw [List.getElem?_append]
  split
  · rename_i hlt
    exact (or_iff_left fun h => absurd h.1 (Nat.ne_of_lt hlt)).symm
  · rename_i hge
    have hnone : o.allocs[k]? = none := List.getElem?_eq_none (Nat.not_lt.mp hge)
    rw [hnone, List.getElem?_singleton]
    split
    · rename_i hk
      have hk' : k = o.allocs.length := by omega
      simp [hk']
    · rename_i hk
      have hk' : k ≠ o.allocs.length := by omega
      simp [hk']

theorem Owns.alloc (h : o.Owns) (i : ι) : (o.alloc i).Owns where
  holds j k hj := by
    rw [getElem?_alloc]
    by_cases hji : j = i
    · rw [hji, alloc_ptr_self, Option.some.injEq] at hj
      subst hj
      exact ⟨Or.inr ⟨rfl, hji.symm⟩, fun hk => absurd (h.old _ hk) (Nat.lt_irrefl _)⟩
    · rw [alloc_ptr hji] at hj
      exact ⟨Or.inl (h.holds j k hj).1, (h.holds j k hj).2⟩
  once := h.once
  old k hk := by
    show k < (o.allocs ++ [i]).length
    rw [List.length_append]
    exact Nat.lt_of_lt_of_le (h.old k hk) (Nat.le_add_right _ _)

theorem Owns.clear (h : o.Owns) (i : ι) : (o.clear i).Owns where
  holds j k hj := h.holds j k (clear_ptr_some hj).2
  once := h.once
  old := h.old

/-- What a variable holds is freed once. -/
theorem Owns.freeAndClear (h : o.Owns) (i : ι) : (o.freeAndClear i).Owns where
  holds j k hj := by
    obtain ⟨hne, hptr⟩ := clear_ptr_some hj
    rw [free_ptr] at hptr
    rw [freeAndClear_allocs, mem_freeAndClear_freed]
    obtain ⟨hown, hlive⟩ := h.holds j k hptr
    refine ⟨hown, fun hk => ?_⟩
    rcases hk with hk | hk
    · exact hne (Option.some.inj (hown.symm.trans (h.holds i k hk).1))
    · exact hlive hk
  once := by
    rw [Owners.freeAndClear, clear_freed, Owners.free]
    split
    · rename_i k hk
      exact List.nodup_cons.mpr ⟨(h.holds i k hk).2, h.once⟩
    · exact h.once
  old k hk := by
    rw [freeAndClear_allocs]
    rcases (mem_freeAndClear_freed k).mp hk with hptr | hold
    · exact (List.getElem?_eq_some_iff.mp (h.holds i k hptr).1).1
    · exact h.old k hold

/-! ## Keeping -/

/-- A variable that is null can be given a block, and every other variable. -/
theorem Keeps.alloc (hj : o.Keeps j) (hnull : j = i → o.ptr i = none) : (o.alloc i).Keeps j := by
  intro k hk hlive
  rw [getElem?_alloc] at hk
  by_cases hji : j = i
  · subst hji
    rw [alloc_ptr_self]
    rcases hk with hk | hk
    · cases (hnull rfl).symm.trans (hj k hk hlive)
    · rw [hk.1]
  · rw [alloc_ptr hji]
    rcases hk with hk | hk
    · exact hj k hk hlive
    · exact absurd hk.2.symm hji

/-- Only what has been freed can be forgotten. -/
theorem Keeps.clear (hj : o.Keeps j) (hnull : j = i → o.ptr i = none) : (o.clear i).Keeps j := by
  intro k hk hlive
  have hptr := hj k hk hlive
  by_cases hji : j = i
  · subst hji
    cases (hnull rfl).symm.trans hptr
  · rw [clear_ptr hji]
    exact hptr

theorem Keeps.freeAndClear (hj : o.Keeps j) (i : ι) : (o.freeAndClear i).Keeps j := by
  intro k hk hlive
  rw [freeAndClear_allocs] at hk
  rw [mem_freeAndClear_freed, not_or] at hlive
  have hptr := hj k hk hlive.2
  by_cases hji : j = i
  · subst hji
    exact absurd hptr hlive.1
  · rw [freeAndClear_ptr hji]
    exact hptr

end Owners

end SprdHal.Lib
