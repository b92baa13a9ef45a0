import Mathlib.Tactic.Common

/-!
# Programs that make requests

A program that sees its surroundings only through the answers to its requests. What it does is a
tree: the next request, and for each answer the rest of the program. It is run by surroundings that
have a state and may also stop it.

Two surroundings whose answers are the same as long as their states are related do not make a
difference to any program (`Prog.run_follows`): it is enough to look at single requests.
-/

namespace SprdHal.Lib

/-- A program with requests `Req` that are answered by `Ans`. -/
inductive Prog {Req : Type} (Ans : Req → Type) (α : Type) : Type
  | done (a : α)
  | request (r : Req) (next : Ans r → Prog Ans α)

/-- How surroundings with states `σ` answer, or stop the program. -/
abbrev Answers {Req : Type} (Ans : Req → Type) (σ : Type) : Type :=
  (r : Req) → σ → Option (Ans r × σ)

namespace Prog

variable {Req : Type} {Ans : Req → Type} {α β σ τ : Type}

def bind : Prog Ans α → (α → Prog Ans β) → Prog Ans β
  | done a, f => f a
  | request r next, f => request r fun b => (next b).bind f

/-- The result of a program and the state that it leaves. -/
def run (h : Answers Ans σ) : Prog Ans α → σ → Option (α × σ)
  | done a, s => some (a, s)
  | request r next, s =>
    match h r s with
    | none => none
    | some (b, s') => (next b).run h s'

variable {h : Answers Ans σ} {g : Answers Ans τ} {s s' : σ} {a : α}

theorem run_bind (p : Prog Ans α) (f : α → Prog Ans β) (s : σ) :
    (p.bind f).run h s = (p.run h s).bind fun x => (f x.1).run h x.2 := by
  induction p generalizing s with
  | done a => rfl
  | request r next ih =>
    simp only [bind, run]
    cases h r s with
    | none => rfl
    | some x => exact ih x.1 x.2

/-- In related states every answer of `h` is also that of `g`, and leaves related states. -/
def Follows (R : σ → τ → Prop) (h : Answers Ans σ) (g : Answers Ans τ) : Prop :=
  ∀ r s t b s', R s t → h r s = some (b, s') → ∃ t', g r t = some (b, t') ∧ R s' t'

/-- **A program does not see a difference that its requests do not see.** -/
theorem run_follows {R : σ → τ → Prop} (hfollows : Follows R h g) (p : Prog Ans α) {t : τ}
    (hR : R s t) (hrun : p.run h s = some (a, s')) :
    ∃ t', p.run g t = some (a, t') ∧ R s' t' := by
  induction p generalizing s t with
  | done b =>
    obtain ⟨rfl, rfl⟩ : b = a ∧ s = s' := by simpa [run] using hrun
    exact ⟨t, rfl, hR⟩
  | request r next ih =>
    rw [run] at hrun
    cases hr : h r s with
    | none => simp only [hr, reduceCtorEq] at hrun
    | some x =>
      obtain ⟨b, s₁⟩ := x
      simp only [hr] at hrun
      obtain ⟨t₁, ht, hR₁⟩ := hfollows r s t b s₁ hR hr
      obtain ⟨t', hrun', hR'⟩ := ih b hR₁ hrun
      refine ⟨t', ?_, hR'⟩
      rw [run, ht]
      exact hrun'

/-- A program moves the state as its requests do. -/
theorem run_moves {M : σ → σ → Prop} (hrefl : ∀ s, M s s)
    (htrans : ∀ s s₁ s₂, M s s₁ → M s₁ s₂ → M s s₂)
    (hstep : ∀ r s b s', h r s = some (b, s') → M s s') (p : Prog Ans α)
    (hrun : p.run h s = some (a, s')) : M s s' := by
  induction p generalizing s with
  | done b =>
    obtain ⟨rfl, rfl⟩ : b = a ∧ s = s' := by simpa [run] using hrun
    exact hrefl s
  | request r next ih =>
    rw [run] at hrun
    cases hr : h r s with
    | none => simp only [hr, reduceCtorEq] at hrun
    | some x =>
      simp only [hr] at hrun
      exact htrans s x.2 s' (hstep r s x.1 x.2 hr) (ih x.1 hrun)

end Prog

end SprdHal.Lib
