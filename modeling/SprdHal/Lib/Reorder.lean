import Mathlib.Data.List.FinRange
import Mathlib.Data.List.Sort
import Mathlib.Logic.Equiv.Basic
import Mathlib.Order.Fin.Basic

/-!
# Reordering a list

A list may be reordered as long as two entries that depend on each other keep their order. To move
an entry to the front is such a step if it depends on none of the entries before it.
-/

namespace SprdHal

variable {α : Type*} {R : α → α → Prop}

/-- `ys` has the entries of `xs` in another order; those with `R` between them are still one behind
the other. -/
def KeepsOrder (R : α → α → Prop) (xs ys : List α) : Prop :=
  ∃ σ : Fin xs.length ≃ Fin ys.length, (∀ i, ys[σ i] = xs[i]) ∧
    ∀ i j, i < j → R xs[i] xs[j] → σ i < σ j

namespace KeepsOrder

theorem refl (xs : List α) : KeepsOrder R xs xs :=
  ⟨Equiv.refl _, fun _ => rfl, fun _ _ hij _ => hij⟩

theorem trans {xs ys zs : List α} (hxy : KeepsOrder R xs ys) (hyz : KeepsOrder R ys zs) :
    KeepsOrder R xs zs := by
  obtain ⟨σ, hσ, hσR⟩ := hxy
  obtain ⟨τ, hτ, hτR⟩ := hyz
  refine ⟨σ.trans τ, fun i => ?_, fun i j hij hR => ?_⟩
  · exact (hτ (σ i)).trans (hσ i)
  · apply hτR _ _ (hσR i j hij hR)
    rwa [hσ i, hσ j]

theorem length_eq {xs ys : List α} (h : KeepsOrder R xs ys) : xs.length = ys.length := by
  obtain ⟨σ, -, -⟩ := h
  exact Fin.equiv_iff_eq.1 ⟨σ⟩

/-- Nothing is added. -/
theorem mem {xs ys : List α} (h : KeepsOrder R xs ys) {a : α} (ha : a ∈ ys) : a ∈ xs := by
  obtain ⟨σ, hσ, -⟩ := h
  obtain ⟨i, hi, rfl⟩ := List.getElem_of_mem ha
  obtain ⟨j, hj⟩ := σ.surjective ⟨i, hi⟩
  have hget := hσ j
  simp only [hj] at hget
  exact List.mem_of_getElem hget.symm

/-- An entry in front of both lists. -/
theorem cons (a : α) {xs ys : List α} (h : KeepsOrder R xs ys) : KeepsOrder R (a :: xs) (a :: ys) := by
  obtain ⟨σ, hσ, hR⟩ := h
  let τ : Fin (xs.length + 1) ≃ Fin (ys.length + 1) :=
    { toFun := Fin.cases 0 fun i => (σ i).succ
      invFun := Fin.cases 0 fun i => (σ.symm i).succ
      left_inv := by
        intro i
        induction i using Fin.cases with
        | zero => rfl
        | succ i => simp
      right_inv := by
        intro i
        induction i using Fin.cases with
        | zero => rfl
        | succ i => simp }
  refine ⟨τ, fun i => ?_, fun i j hij hRij => ?_⟩
  · induction i using Fin.cases with
    | zero => rfl
    | succ i => exact hσ i
  · induction i using Fin.cases with
    | zero =>
      induction j using Fin.cases with
      | zero => exact absurd hij (Nat.lt_irrefl _)
      | succ j => exact Nat.succ_pos _
    | succ i =>
      induction j using Fin.cases with
      | zero => exact absurd hij (Nat.not_lt_zero _)
      | succ j => exact Nat.succ_lt_succ (hR i j (Nat.lt_of_succ_lt_succ hij) hRij)

/-- Two entries next to each other. -/
theorem swap {a b : α} (xs : List α) (h : ¬R a b) : KeepsOrder R (a :: b :: xs) (b :: a :: xs) := by
  let τ : Fin (xs.length + 2) ≃ Fin (xs.length + 2) := Equiv.swap 0 1
  have hfix : ∀ k (hk : k + 2 < xs.length + 2), τ ⟨k + 2, hk⟩ = ⟨k + 2, hk⟩ := fun k hk =>
    Equiv.swap_apply_of_ne_of_ne (by simp [Fin.ext_iff]) (by simp [Fin.ext_iff])
  have h0 : τ 0 = 1 := Equiv.swap_apply_left 0 1
  have h1 : τ 1 = 0 := Equiv.swap_apply_right 0 1
  refine ⟨τ, fun i => ?_, fun i j hij hR => ?_⟩
  · match i with
    | 0 => exact congrArg (fun k : Fin (xs.length + 2) => (b :: a :: xs)[k]) h0
    | 1 => exact congrArg (fun k : Fin (xs.length + 2) => (b :: a :: xs)[k]) h1
    | ⟨i + 2, hi⟩ => exact congrArg (fun k : Fin (xs.length + 2) => (b :: a :: xs)[k]) (hfix i hi)
  · match i, j with
    | 0, 0 => exact absurd hij (Nat.lt_irrefl _)
    | 0, 1 => exact absurd hR h
    | 1, 0 => exact absurd hij (Nat.not_lt_zero _)
    | 1, 1 => exact absurd hij (Nat.lt_irrefl _)
    | ⟨i + 2, hi⟩, 0 => exact absurd hij (Nat.not_lt_zero _)
    | ⟨i + 2, hi⟩, 1 => exact absurd hij (by simp [Fin.lt_def])
    | 0, ⟨j + 2, hj⟩ =>
      rw [h0, hfix j hj]
      simp [Fin.lt_def]
    | 1, ⟨j + 2, hj⟩ =>
      rw [h1, hfix j hj]
      simp [Fin.lt_def]
    | ⟨i + 2, hi⟩, ⟨j + 2, hj⟩ =>
      rw [hfix i hi, hfix j hj]
      exact hij

/-- An entry that goes to the front. -/
theorem toFront {x : α} (post : List α) : ∀ (mid : List α), (∀ a ∈ mid, ¬R a x) →
    KeepsOrder R (mid ++ x :: post) (x :: (mid ++ post)) := by
  intro mid
  induction mid with
  | nil => intro _; exact refl _
  | cons a mid ih =>
    intro h
    have hmid : KeepsOrder R (mid ++ x :: post) (x :: (mid ++ post)) :=
      ih fun b hb => h b (List.mem_cons_of_mem _ hb)
    exact (hmid.cons a).trans (swap _ (h a List.mem_cons_self))

/-- Entries that all depend on each other are still one behind the other. -/
theorem filter_eq {xs ys : List α} (h : KeepsOrder R xs ys) (P : α → Bool)
    (hR : ∀ a b, P a → P b → R a b) : xs.filter P = ys.filter P := by
  obtain ⟨σ, hσ, hlt⟩ := h
  -- the places of these entries grow in both lists
  have hplaces : ((List.finRange xs.length).filter fun i => P xs[i]).map σ =
      (List.finRange ys.length).filter fun i => P ys[i] := by
    refine List.Pairwise.eq_of_mem_iff (r := (· < ·)) ?_
      ((List.pairwise_lt_finRange _).filter _) fun k => ?_
    · rw [List.pairwise_map, List.pairwise_filter]
      exact (List.pairwise_lt_finRange _).imp fun hij hi hj => hlt _ _ hij (hR _ _ hi hj)
    · simp only [List.mem_map, List.mem_filter, List.mem_finRange, true_and]
      constructor
      · rintro ⟨i, hi, rfl⟩
        rwa [hσ i]
      · intro hk
        obtain ⟨i, rfl⟩ := σ.surjective k
        exact ⟨i, by rwa [hσ i] at hk, rfl⟩
  have hfilter : ∀ zs : List α, zs.filter P =
      ((List.finRange zs.length).filter fun i => P zs[i]).map fun i => zs[i] := by
    intro zs
    conv_lhs => rw [← List.map_get_finRange zs]
    rw [List.filter_map]
    rfl
  rw [hfilter ys, ← hplaces, List.map_map, hfilter xs]
  exact List.map_congr_left fun i _ => (hσ i).symm

end KeepsOrder

end SprdHal
