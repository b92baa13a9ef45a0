import Mathlib.Logic.Function.Basic
import Mathlib.Logic.Function.Iterate
import Mathlib.Tactic.Common

/-!
# Copies with two pointers

Code that picks elements out of an array copies them one by one, both pointers moving on, and moves
the pointer into the source further between the copies. `Picks` says what a part of such code
copies and how far it moves the source pointer; all positions are relative to where it begins. Parts
are put together by `Picks.append`, and `Picks.iterate` is the rule for a loop.
-/

namespace SprdHal.Lib

/-- The two pointers, the contents of the destination, and the places that were read and written. -/
structure Pointers (α : Type) where
  src : Nat
  dst : Nat
  out : Nat → α
  reads : List Nat
  writes : List Nat

namespace Pointers

variable {α : Type}

/-- `*dst++ = *src++` -/
def copy (img : Nat → α) (c : Pointers α) : Pointers α where
  src := c.src + 1
  dst := c.dst + 1
  out := Function.update c.out c.dst (img c.src)
  reads := c.reads ++ [c.src]
  writes := c.writes ++ [c.dst]

/-- `src += n` -/
def skip (n : Nat) (c : Pointers α) : Pointers α := { c with src := c.src + n }

end Pointers

/-- From `c` to `c'` there are `n` elements copied, that with number `j` from the place `p j`, and
the source pointer moves by `adv`. -/
structure Picks {α : Type} (img : Nat → α) (n : Nat) (p : Nat → Nat) (adv : Nat)
    (c c' : Pointers α) : Prop where
  src : c'.src = c.src + adv
  dst : c'.dst = c.dst + n
  copied : ∀ j, j < n → c'.out (c.dst + j) = img (c.src + p j)
  frame : ∀ x, x < c.dst ∨ c.dst + n ≤ x → c'.out x = c.out x
  reads : ∀ r ∈ c'.reads, r ∈ c.reads ∨ ∃ j, j < n ∧ r = c.src + p j
  writes : ∀ w ∈ c'.writes, w ∈ c.writes ∨ ∃ j, j < n ∧ w = c.dst + j

namespace Picks

variable {α : Type} {img : Nat → α} {n m adv adv' : Nat} {p q : Nat → Nat}
  {c c' c'' : Pointers α}

theorem refl (p : Nat → Nat) (c : Pointers α) : Picks img 0 p 0 c c where
  src := rfl
  dst := rfl
  copied _ hj := absurd hj (Nat.not_lt_zero _)
  frame _ _ := rfl
  reads _ hr := Or.inl hr
  writes _ hw := Or.inl hw

theorem copy (img : Nat → α) (c : Pointers α) : Picks img 1 id 1 c (c.copy img) where
  src := rfl
  dst := rfl
  copied j hj := by
    obtain rfl : j = 0 := by omega
    exact Function.update_self _ _ _
  frame x hx := Function.update_of_ne (by omega) _ _
  reads r hr := by
    rcases List.mem_append.mp hr with hr | hr
    · exact Or.inl hr
    · exact Or.inr ⟨0, Nat.one_pos, List.mem_singleton.mp hr⟩
  writes w hw := by
    rcases List.mem_append.mp hw with hw | hw
    · exact Or.inl hw
    · exact Or.inr ⟨0, Nat.one_pos, List.mem_singleton.mp hw⟩

theorem skip (h : Picks img n p adv c c') (k : Nat) : Picks img n p (adv + k) c (c'.skip k) where
  src := (congrArg (· + k) h.src).trans (Nat.add_assoc _ _ _)
  dst := h.dst
  copied := h.copied
  frame := h.frame
  reads := h.reads
  writes := h.writes

/-- What is copied depends on the places alone. -/
theorem congr (h : Picks img n p adv c c') (hp : ∀ j, j < n → p j = q j) :
    Picks img n q adv c c' where
  src := h.src
  dst := h.dst
  copied j hj := by rw [h.copied j hj, hp j hj]
  frame := h.frame
  reads r hr := (h.reads r hr).imp_right fun ⟨j, hj, heq⟩ => ⟨j, hj, by rw [heq, hp j hj]⟩
  writes := h.writes

/-- One part after the other. -/
theorem append (h : Picks img n p adv c c') (h' : Picks img m q adv' c' c'') :
    Picks img (n + m) (fun j => if j < n then p j else adv + q (j - n)) (adv + adv') c c'' where
  src := by rw [h'.src, h.src, Nat.add_assoc]
  dst := by rw [h'.dst, h.dst, Nat.add_assoc]
  copied j hj := by
    by_cases hjn : j < n
    · rw [if_pos hjn, h'.frame _ (Or.inl (by rw [h.dst]; omega)), h.copied j hjn]
    · have hsplit : c.dst + j = c'.dst + (j - n) := by rw [h.dst]; omega
      rw [if_neg hjn, hsplit, h'.copied (j - n) (by omega), h.src, Nat.add_assoc]
  frame x hx := by
    rw [h'.frame x (by rw [h.dst]; omega), h.frame x (by omega)]
  reads r hr := by
    rcases h'.reads r hr with hr | ⟨j, hj, rfl⟩
    · rcases h.reads r hr with hr | ⟨j, hj, rfl⟩
      · exact Or.inl hr
      · exact Or.inr ⟨j, by omega, by rw [if_pos hj]⟩
    · refine Or.inr ⟨n + j, by omega, ?_⟩
      rw [if_neg (by omega), h.src, Nat.add_sub_cancel_left, Nat.add_assoc]
  writes w hw := by
    rcases h'.writes w hw with hw | ⟨j, hj, rfl⟩
    · rcases h.writes w hw with hw | ⟨j, hj, rfl⟩
      · exact Or.inl hw
      · exact Or.inr ⟨j, by omega, rfl⟩
    · exact Or.inr ⟨n + j, by omega, by rw [h.dst, Nat.add_assoc]⟩

/-- **A loop** of `k` rounds: element `j` is copied in round `j / n`. -/
theorem iterate {f : Pointers α → Pointers α} (h : ∀ c, Picks img n p adv c (f c)) (k : Nat)
    (c : Pointers α) :
    Picks img (n * k) (fun j => adv * (j / n) + p (j % n)) (adv * k) c (f^[k] c) := by
  induction k with
  | zero => exact refl _ c
  | succ k ih =>
    rw [Function.iterate_succ_apply']
    refine (ih.append (h _)).congr fun j hj => ?_
    split
    · next => rfl
    · next hlast =>
      have hn : 0 < n := by
        rcases Nat.eq_zero_or_pos n with rfl | hn
        · omega
        · exact hn
      have hdiv : j / n = k := Nat.div_eq_of_lt_le (by rw [Nat.mul_comm]; omega)
        (by rw [Nat.mul_comm, Nat.mul_succ]; omega)
      have hmod : j % n = j - n * k := by rw [Nat.mod_eq_sub, hdiv]
      rw [hdiv, hmod]

end Picks

end SprdHal.Lib
